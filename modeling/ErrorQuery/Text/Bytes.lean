/-!
# Positions counted in bytes

Positions in a query text are counted in the bytes of its UTF-8 form.  A text is handled as a
list of characters, so its length in bytes is the sum of theirs, and the stretch between two
positions is cut out by counting along the list.
-/

set_option autoImplicit false

namespace ErrorQuery.Text

/-- The length of a text in bytes. -/
def byteLength : List Char → Nat
  | [] => 0
  | c :: cs => c.utf8Size + byteLength cs

/-- The text from the given number of bytes on. -/
def dropBytes : Nat → List Char → List Char
  | _, [] => []
  | n, c :: cs => if n = 0 then c :: cs else dropBytes (n - c.utf8Size) cs

/-- The first characters of a text, up to the given number of bytes. -/
def takeBytes : Nat → List Char → List Char
  | _, [] => []
  | n, c :: cs => if n = 0 then [] else c :: takeBytes (n - c.utf8Size) cs

/-- The stretch of a text between two positions. -/
def slice (start stop : Nat) (cs : List Char) : List Char :=
  takeBytes (stop - start) (dropBytes start cs)

/-- An empty text has no bytes. -/
@[simp] theorem byteLength_nil : byteLength [] = 0 := rfl

/-- A character takes its size in bytes. -/
@[simp] theorem byteLength_cons (c : Char) (cs : List Char) :
    byteLength (c :: cs) = c.utf8Size + byteLength cs := rfl

/-- Lengths add up over a concatenation. -/
@[simp] theorem byteLength_append (cs ds : List Char) :
    byteLength (cs ++ ds) = byteLength cs + byteLength ds := by
  induction cs with
  | nil => simp
  | cons c cs ih =>
      simp only [List.cons_append, byteLength_cons, ih]
      omega

/-- Only the empty text has no bytes. -/
theorem byteLength_eq_zero {cs : List Char} : byteLength cs = 0 ↔ cs = [] := by
  cases cs with
  | nil => simp
  | cons c cs =>
      have hc := Char.utf8Size_pos c
      simp only [byteLength_cons, reduceCtorEq, iff_false]
      omega

/-- The UTF-8 form of a text is as long as its length in bytes says. -/
theorem size_utf8Encode (cs : List Char) : cs.utf8Encode.size = byteLength cs := by
  induction cs with
  | nil => rfl
  | cons c cs ih =>
      rw [List.utf8Encode_cons, ByteArray.size_append, ih, List.utf8Encode_singleton]
      simp [byteLength]

/-- The length in bytes of the characters of a string is that of the string. -/
theorem byteLength_toList (s : String) : byteLength s.toList = s.utf8ByteSize := by
  rw [← size_utf8Encode, String.utf8Encode_toList, String.size_toByteArray]

/-- Dropping the length of the first part leaves the second. -/
@[simp] theorem dropBytes_append (cs ds : List Char) :
    dropBytes (byteLength cs) (cs ++ ds) = ds := by
  induction cs with
  | nil => cases ds <;> simp [dropBytes]
  | cons c cs ih =>
      have hc := Char.utf8Size_pos c
      have hne : c.utf8Size + byteLength cs ≠ 0 := by omega
      simp only [List.cons_append, byteLength_cons, dropBytes, hne, if_false,
        Nat.add_sub_cancel_left, ih]

/-- Taking the length of the first part gives the first part. -/
@[simp] theorem takeBytes_append (cs ds : List Char) :
    takeBytes (byteLength cs) (cs ++ ds) = cs := by
  induction cs with
  | nil => cases ds <;> simp [takeBytes]
  | cons c cs ih =>
      have hc := Char.utf8Size_pos c
      have hne : c.utf8Size + byteLength cs ≠ 0 := by omega
      simp only [List.cons_append, byteLength_cons, takeBytes, hne, if_false,
        Nat.add_sub_cancel_left, ih]

/-- The stretch between the lengths of two beginnings of a text is what lies between them. -/
theorem slice_append (before inside after : List Char) :
    slice (byteLength before) (byteLength before + byteLength inside)
      (before ++ inside ++ after) = inside := by
  simp [slice, List.append_assoc]

end ErrorQuery.Text

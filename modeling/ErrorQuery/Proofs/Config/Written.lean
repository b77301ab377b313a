import ErrorQuery.Config.File
import ErrorQuery.Proofs.Json.Grammar

/-!
# What a written configuration says

A configuration is written as a JSON object or a JSON array (`Config.Denotes`).  The members of an
object have distinct names, and these are the names of settings; the items of an array are at most
two.  Each value names a choice (`Config.Names`), and a setting that is left out has its standard
value.

The reader of configurations accepts exactly the texts of such values, and what it gives is what
they say (`configurations_are_what_is_written`).  It walks along the members of an object with a
draft: what one member does to it is `Draft.Puts`, what several do is `Draft.Fills`, and a draft
that is filled from nothing has the settings that the members give, in whatever order
(`Draft.fills_empty_iff`).
-/

set_option autoImplicit false

namespace ErrorQuery.Config

open Json

/-! ### Choices -/

/-- The value names the choice: it is a string, or an object whose one member has that name and is
null. -/
inductive Names {α : Type} (nameOf : α → String) (a : α) : Json → Prop where
  | bare : Names nameOf a (.string (nameOf a))
  | keyed : Names nameOf a (.object [(nameOf a, .null)])

/-- A setting has the choice that is named for it, and the standard one if there is none. -/
structure Given {α : Type} (nameOf : α → String) (standard : α) (present : Json → Prop) (a : α) :
    Prop where
  named : ∀ j, present j → Names nameOf a j
  absent : (∀ j, ¬ present j) → a = standard

/-- The value says that the configuration is this. -/
inductive Denotes : Json → Config → Prop where
  | object {members : List (String × Json)} {config : Config} :
      (members.map Prod.fst).Nodup →
      (∀ name ∈ members.map Prod.fst, name = "tokenizer" ∨ name = "line_ending") →
      Given Strategy.name .standard (fun j => ("tokenizer", j) ∈ members) config.strategy →
      Given LineEnding.name .standard (fun j => ("line_ending", j) ∈ members) config.lineEnding →
      Denotes (.object members) config
  | array {items : List Json} {config : Config} :
      items.length ≤ 2 →
      Given Strategy.name .standard (items[0]? = some ·) config.strategy →
      Given LineEnding.name .standard (items[1]? = some ·) config.lineEnding →
      Denotes (.array items) config

/-- The order of members carries no meaning. -/
theorem Denotes.perm {members members' : List (String × Json)} {config : Config}
    (h : Denotes (.object members) config) (hperm : members.Perm members') :
    Denotes (.object members') config := by
  cases h with
  | object hnodup hnames hstrategy hending =>
      have hkeys : (members.map Prod.fst).Perm (members'.map Prod.fst) := hperm.map Prod.fst
      refine .object (hkeys.nodup_iff.mp hnodup) (fun name hname => hnames name ?_) ?_ ?_
      · exact hkeys.mem_iff.mpr hname
      · simpa only [hperm.mem_iff] using hstrategy
      · simpa only [hperm.mem_iff] using hending

/-! ### Reading a choice -/

/-- A complaint about what has been found is no result. -/
theorem unwanted_ne_ok {α : Type} (wanted : String) (cs : List Char) (a : α) :
    unwanted wanted cs ≠ .ok a := by
  unfold unwanted
  split <;> simp

/-- A null is read exactly where one is written. -/
theorem readNull_eq_ok_iff {cs rest : List Char} :
    readNull cs = .ok rest ↔ ElementAt cs .null rest := by
  rw [elementAt_iff, readNull]
  generalize skipGaps cs = ds
  constructor
  · intro h
    split at h
    · obtain rfl := expect_eq_ok_iff.mp h
      exact .null
    · exact absurd h (unwanted_ne_ok _ _ _)
  · rintro ⟨⟩
    exact expect_eq_ok_iff.mpr rfl

/-- The name of a choice is read exactly where a string is written. -/
theorem readChoiceName_eq_ok_iff {cs rest : List Char} {name : String} :
    readChoiceName cs = .ok (name, rest) ↔
      ∃ ds, skipGaps cs = '"' :: ds ∧ StringTail ds name.toList rest := by
  rw [readChoiceName]
  generalize skipGaps cs = ds
  constructor
  · intro h
    split at h
    · contradiction
    · rename_i es
      exact ⟨es, rfl, readString_eq_ok_iff.mp h⟩
    · contradiction
  · rintro ⟨es, rfl, hname⟩
    exact readString_eq_ok_iff.mpr hname

section Choice

variable {α : Type} {all : List α} {nameOf : α → String}

/-- Picking by a name gives what has this name. -/
theorem pick_eq_ok_iff (hall : ∀ a, a ∈ all) (hname : Function.Injective nameOf) {name : String}
    {a : α} : pick all nameOf name = .ok a ↔ name = nameOf a := by
  rw [← find?_name_eq_some_iff hall hname, pick, mapError_eq_ok_iff, choose]
  cases all.find? (nameOf · == name) <;> simp

/-- A choice is read exactly if its name is written, in either form. -/
theorem readChoice_eq_ok_iff (hall : ∀ a, a ∈ all) (hname : Function.Injective nameOf)
    {cs rest : List Char} {a : α} :
    readChoice all nameOf cs = .ok (a, rest) ↔ ∃ j, ElementAt cs j rest ∧ Names nameOf a j := by
  simp only [elementAt_iff]
  rw [readChoice]
  generalize skipGaps cs = ds
  constructor
  · intro h
    split at h
    · contradiction
    · obtain ⟨⟨name, behind⟩, hstring, h⟩ := bind_eq_ok_iff.mp h
      obtain ⟨b, hpick, h⟩ := bind_eq_ok_iff.mp h
      cases h
      obtain rfl := (pick_eq_ok_iff hall hname).mp hpick
      exact ⟨_, .string (readString_eq_ok_iff.mp hstring), .bare⟩
    · -- the name is that of the one member of an object
      obtain ⟨⟨name, behindName⟩, hstring, h⟩ := bind_eq_ok_iff.mp h
      obtain ⟨b, hpick, h⟩ := bind_eq_ok_iff.mp h
      obtain ⟨behindColon, hcolon, h⟩ := bind_eq_ok_iff.mp h
      obtain ⟨behindNull, hnull, h⟩ := bind_eq_ok_iff.mp h
      obtain ⟨behindBrace, hbrace, h⟩ := bind_eq_ok_iff.mp h
      cases h
      obtain rfl := (pick_eq_ok_iff hall hname).mp hpick
      obtain ⟨es, hquote, hname⟩ := readChoiceName_eq_ok_iff.mp hstring
      have hmember : MemberAt _ (nameOf a) .null behindNull := memberAt_iff.mpr
        ⟨es, _, _, hquote, hname, (mark_eq_ok_iff (by decide)).mp hcolon,
          readNull_eq_ok_iff.mp hnull⟩
      exact ⟨_, .object (.some hmember (.close ((mark_eq_ok_iff (by decide)).mp hbrace))), .keyed⟩
    · contradiction
  · rintro ⟨j, hvalue, hnames⟩
    cases hnames with
    | bare =>
        cases hvalue with
        | string hstring =>
            refine bind_eq_ok_iff.mpr ⟨_, readString_eq_ok_iff.mpr hstring, ?_⟩
            exact bind_eq_ok_iff.mpr ⟨a, (pick_eq_ok_iff hall hname).mpr rfl, rfl⟩
    | keyed =>
        cases hvalue with
        | object hmembers =>
            cases hmembers with
            | some hmember hmore =>
                obtain ⟨es, fs, gs, hquote, hstring, hcolon, hnull⟩ := memberAt_iff.mp hmember
                cases hmore with
                | close hbrace =>
                    refine bind_eq_ok_iff.mpr
                      ⟨_, readChoiceName_eq_ok_iff.mpr ⟨es, hquote, hstring⟩, ?_⟩
                    refine bind_eq_ok_iff.mpr ⟨a, (pick_eq_ok_iff hall hname).mpr rfl, ?_⟩
                    refine bind_eq_ok_iff.mpr ⟨_, (mark_eq_ok_iff (by decide)).mpr hcolon, ?_⟩
                    refine bind_eq_ok_iff.mpr ⟨_, readNull_eq_ok_iff.mpr hnull, ?_⟩
                    exact bind_eq_ok_iff.mpr ⟨_, (mark_eq_ok_iff (by decide)).mpr hbrace, rfl⟩

end Choice

/-- A strategy is read exactly where a value names it. -/
theorem readStrategy_eq_ok_iff {cs rest : List Char} {strategy : Strategy} :
    readStrategy cs = .ok (strategy, rest) ↔
      ∃ j, ElementAt cs j rest ∧ Names Strategy.name strategy j :=
  readChoice_eq_ok_iff (fun s => by cases s <;> decide)
    (fun s t => by cases s <;> cases t <;> decide)

/-- A line ending is read exactly where a value names it. -/
theorem readLineEnding_eq_ok_iff {cs rest : List Char} {ending : LineEnding} :
    readLineEnding cs = .ok (ending, rest) ↔
      ∃ j, ElementAt cs j rest ∧ Names LineEnding.name ending j :=
  readChoice_eq_ok_iff (fun e => by cases e <;> decide)
    (fun e f => by cases e <;> cases f <;> decide)

/-! ### Reading members -/

/-- What a value of a setting does to the settings that have been read: it adds one that was not
there. -/
inductive Draft.Puts : Draft → Setting → Json → Draft → Prop where
  | strategy {ending : Option LineEnding} {strategy : Strategy} {j : Json} :
      Names Strategy.name strategy j → Puts ⟨none, ending⟩ .strategy j ⟨some strategy, ending⟩
  | lineEnding {strategy : Option Strategy} {ending : LineEnding} {j : Json} :
      Names LineEnding.name ending j → Puts ⟨strategy, none⟩ .lineEnding j ⟨strategy, some ending⟩

/-- What several members do. -/
inductive Draft.Fills : Draft → List (String × Json) → Draft → Prop where
  | nil {d : Draft} : Fills d [] d
  | cons {d next final : Draft} {setting : Setting} {j : Json} {members : List (String × Json)} :
      d.Puts setting j next → Fills next members final →
      Fills d ((setting.name, j) :: members) final

/-- A setting is found exactly by its name. -/
theorem readSetting_eq_ok_iff {name : String} {setting : Setting} :
    readSetting name = .ok setting ↔ name = setting.name := by
  have hall : ∀ s, s ∈ Setting.all := by
    intro s
    cases s <;> decide
  have hname : Function.Injective Setting.name := by
    intro s t
    cases s <;> cases t <;> decide
  rw [← find?_name_eq_some_iff hall hname, readSetting]
  cases Setting.all.find? (·.name == name) <;> simp

/-- A choice behind its colon is read exactly if a value names it, and it goes where it is put. -/
theorem choice_behind_colon_eq_ok_iff {α : Type} {nameOf : α → String}
    {read : List Char → Except Fault (α × List Char)}
    (hread : ∀ cs rest a,
      read cs = .ok (a, rest) ↔ ∃ j, ElementAt cs j rest ∧ Names nameOf a j)
    (put : α → Draft) {cs rest : List Char} {d : Draft} :
    (do let behind ← mark ':' cs
        let (a, behind) ← read behind
        Except.ok (put a, behind)) = .ok (d, rest) ↔
      ∃ ds j, Gaps cs (':' :: ds) ∧ ElementAt ds j rest ∧ ∃ a, Names nameOf a j ∧ put a = d := by
  constructor
  · intro h
    obtain ⟨ds, hcolon, h⟩ := bind_eq_ok_iff.mp h
    obtain ⟨⟨a, behind⟩, hvalue, h⟩ := bind_eq_ok_iff.mp h
    cases h
    obtain ⟨j, helement, hnames⟩ := (hread _ _ _).mp hvalue
    exact ⟨ds, j, (mark_eq_ok_iff (by decide)).mp hcolon, helement, a, hnames, rfl⟩
  · rintro ⟨ds, j, hcolon, helement, a, hnames, rfl⟩
    refine bind_eq_ok_iff.mpr ⟨_, (mark_eq_ok_iff (by decide)).mpr hcolon, ?_⟩
    exact bind_eq_ok_iff.mpr ⟨_, (hread _ _ _).mpr ⟨j, helement, hnames⟩, rfl⟩

/-- A strategy is put where there is none. -/
theorem Draft.puts_strategy_iff {ending : Option LineEnding} {j : Json} {d : Draft} :
    Draft.Puts ⟨none, ending⟩ .strategy j d ↔
      ∃ strategy, Names Strategy.name strategy j ∧ ⟨some strategy, ending⟩ = d := by
  constructor
  · intro h
    cases h with
    | strategy hnames => exact ⟨_, hnames, rfl⟩
  · rintro ⟨strategy, hnames, rfl⟩
    exact .strategy hnames

/-- A line ending is put where there is none. -/
theorem Draft.puts_lineEnding_iff {strategy : Option Strategy} {j : Json} {d : Draft} :
    Draft.Puts ⟨strategy, none⟩ .lineEnding j d ↔
      ∃ ending, Names LineEnding.name ending j ∧ ⟨strategy, some ending⟩ = d := by
  constructor
  · intro h
    cases h with
    | lineEnding hnames => exact ⟨_, hnames, rfl⟩
  · rintro ⟨ending, hnames, rfl⟩
    exact .lineEnding hnames

/-- The value of a setting that has not been read is read exactly if it names a choice. -/
theorem readValue_eq_ok_iff {d d' : Draft} {cs rest : List Char} {setting : Setting}
    (hd : d.has setting = false) :
    readValue d cs setting = .ok (d', rest) ↔ ∃ ds j, Gaps cs (':' :: ds) ∧ ElementAt ds j rest ∧
      d.Puts setting j d' := by
  obtain ⟨strategy, ending⟩ := d
  cases setting with
  | strategy =>
      obtain rfl : strategy = none := by simpa [Draft.has] using hd
      simp only [Draft.puts_strategy_iff]
      exact choice_behind_colon_eq_ok_iff (fun _ _ _ => readStrategy_eq_ok_iff)
        fun strategy => ⟨some strategy, ending⟩
  | lineEnding =>
      obtain rfl : ending = none := by simpa [Draft.has] using hd
      simp only [Draft.puts_lineEnding_iff]
      exact choice_behind_colon_eq_ok_iff (fun _ _ _ => readLineEnding_eq_ok_iff)
        fun ending => ⟨strategy, some ending⟩

/-- A setting is put into a draft only if it is not there yet. -/
theorem Draft.Puts.has_eq_false {d d' : Draft} {setting : Setting} {j : Json}
    (h : d.Puts setting j d') : d.has setting = false := by
  cases h <;> rfl

/-- A member is read exactly if it adds a setting. -/
theorem readMember_eq_ok_iff {d d' : Draft} {cs rest : List Char} :
    readMember d cs = .ok (d', rest) ↔
      ∃ setting j, MemberAt ('"' :: cs) setting.name j rest ∧ d.Puts setting j d' := by
  constructor
  · intro h
    obtain ⟨⟨name, behind⟩, hname, hmember⟩ := bind_eq_ok_iff.mp h
    obtain ⟨setting, hsetting, hvalue⟩ := bind_eq_ok_iff.mp hmember
    obtain rfl := readSetting_eq_ok_iff.mp hsetting
    split at hvalue
    · contradiction
    · rename_i hfresh
      obtain ⟨ds, j, hcolon, helement, hputs⟩ :=
        (readValue_eq_ok_iff (by simpa using hfresh)).mp hvalue
      exact ⟨setting, j, memberAt_iff.mpr ⟨cs, _, ds, skipGaps_quote cs,
        readString_eq_ok_iff.mp hname, hcolon, helement⟩, hputs⟩
  · rintro ⟨setting, j, hmember, hputs⟩
    obtain ⟨ds, es, fs, hquote, hname, hcolon, helement⟩ := memberAt_iff.mp hmember
    obtain rfl : cs = ds := by simpa [skipGaps_quote] using hquote
    refine bind_eq_ok_iff.mpr ⟨_, readString_eq_ok_iff.mpr hname, ?_⟩
    refine bind_eq_ok_iff.mpr ⟨setting, readSetting_eq_ok_iff.mpr rfl, ?_⟩
    rw [if_neg (by simp [hputs.has_eq_false])]
    exact (readValue_eq_ok_iff hputs.has_eq_false).mpr ⟨fs, j, hcolon, helement, hputs⟩

/-- Behind a member the object ends, or there is a comma and another member. -/
theorem readMembers_of_member {d next : Draft} {cs behind : List Char}
    (h : readMember d cs = .ok (next, behind)) :
    (∀ rest, skipGaps behind = '\x7d' :: rest → readMembers d cs = .ok (next, rest)) ∧
      ∀ ds es, skipGaps behind = ',' :: ds → skipGaps ds = '"' :: es →
        readMembers d cs = readMembers next es := by
  have hmembers := readMembers.eq_def d cs
  split at hmembers
  · rename_i e he
    rw [h] at he
    contradiction
  · rename_i d' rest' hread
    rw [h] at hread
    cases hread
    constructor
    · intro rest hbrace
      simp only [hbrace] at hmembers
      exact hmembers
    · intro ds es hcomma hquote
      simp only [hcomma, hquote] at hmembers
      exact hmembers

/-- Members are read exactly if they are written and each of them adds a setting. -/
theorem readMembers_eq_ok_iff {d d' : Draft} {cs rest : List Char} :
    readMembers d cs = .ok (d', rest) ↔
      ∃ members, members ≠ [] ∧ MembersAt ('"' :: cs) members rest ∧ d.Fills members d' := by
  constructor
  · intro h
    fun_induction readMembers d cs with
    | case3 d cs next behind hread rest' hbrace =>
        cases h
        obtain ⟨setting, j, hmember, hputs⟩ := readMember_eq_ok_iff.mp hread
        have hclose := (skipGaps_eq_cons_iff (by decide)).mp hbrace
        exact ⟨_, List.cons_ne_nil _ _, .some hmember (.close hclose), .cons hputs .nil⟩
    | case5 d cs next behind hread ds hcomma _ es hquote ih =>
        obtain ⟨setting, j, hmember, hputs⟩ := readMember_eq_ok_iff.mp hread
        obtain ⟨members, hne, hmembers, hfills⟩ := ih h
        refine ⟨_, List.cons_ne_nil _ members, .some hmember ?_, .cons hputs hfills⟩
        cases hmembers with
        | none _ => contradiction
        | some hmember' hmore =>
            exact .comma ((skipGaps_eq_cons_iff (by decide)).mp hcomma)
              ((memberAt_quote_iff hquote).mp hmember') hmore
    | _ => contradiction
  · rintro ⟨members, hne, hmembers, hfills⟩
    -- each member is read into the draft that those before it have left
    induction members generalizing d cs with
    | nil => contradiction
    | cons member members ih =>
        cases hmembers with
        | some hmember hmore =>
            cases hfills with
            | cons hputs hrest =>
                obtain ⟨hclose, hcomma⟩ :=
                  readMembers_of_member (readMember_eq_ok_iff.mpr ⟨_, _, hmember, hputs⟩)
                cases hmore with
                | close hbrace =>
                    cases hrest
                    exact hclose _ ((skipGaps_eq_cons_iff (by decide)).mpr hbrace)
                | comma hgaps hmember' hmore' =>
                    obtain ⟨es, _, _, hquote, _⟩ := memberAt_iff.mp hmember'
                    rw [hcomma _ es ((skipGaps_eq_cons_iff (by decide)).mpr hgaps) hquote]
                    exact ih (List.cons_ne_nil _ _)
                      (.some ((memberAt_quote_iff hquote).mpr hmember') hmore') hrest

/-! ### What members fill in -/

/-- What members do to one setting: it stays as it is, or it was not there and has the choice that
the member of its name gives. -/
structure Part {α : Type} (nameOf : α → String) (name : String) (members : List (String × Json))
    (old new : Option α) : Prop where
  present : ∀ j, (name, j) ∈ members → old = none ∧ ∃ a, Names nameOf a j ∧ new = some a
  absent : name ∉ members.map Prod.fst → new = old

section Part

variable {α : Type} {nameOf : α → String} {name : String} {members : List (String × Json)}
  {old new : Option α}

/-- Members of other names leave a part of a draft as it was. -/
theorem part_of_notMem (hname : name ∉ members.map Prod.fst) :
    Part nameOf name members old new ↔ new = old := by
  constructor
  · intro h
    exact h.absent hname
  · intro h
    exact ⟨fun j hj => absurd (List.mem_map_of_mem hj) hname, fun _ => h⟩

/-- A setting that is there can only stay. -/
theorem Part.notMem_of_some {a : α} (h : Part nameOf name members (some a) new) :
    name ∉ members.map Prod.fst := by
  intro hname
  obtain ⟨⟨_, j⟩, hj, rfl⟩ := List.mem_map.mp hname
  exact absurd (h.present j hj).1 (Option.some_ne_none a)

/-- A member of the name fills the part, which must have been empty. -/
theorem part_cons_self {j : Json} (hname : name ∉ members.map Prod.fst) :
    Part nameOf name ((name, j) :: members) old new ↔
      old = none ∧ ∃ a, Names nameOf a j ∧ Part nameOf name members (some a) new := by
  simp only [part_of_notMem hname]
  constructor
  · intro h
    exact h.present j List.mem_cons_self
  · rintro ⟨hold, a, ha, hnew⟩
    refine ⟨fun j' hj' => ⟨hold, a, ?_, hnew⟩, fun habsent => ?_⟩
    · rcases List.mem_cons.mp hj' with heq | hmem
      · obtain rfl := (Prod.mk.inj heq).2
        exact ha
      · exact absurd (List.mem_map_of_mem hmem) hname
    · exact absurd List.mem_cons_self habsent

/-- A member of another name leaves the part to those behind it. -/
theorem part_cons_of_ne {name' : String} {j : Json} (hne : name ≠ name') :
    Part nameOf name ((name', j) :: members) old new ↔ Part nameOf name members old new := by
  have hmem : ∀ k, (name, k) ∈ (name', j) :: members ↔ (name, k) ∈ members := by
    simp [hne]
  have hkey : name ∈ ((name', j) :: members).map Prod.fst ↔ name ∈ members.map Prod.fst := by
    simp [hne]
  constructor
  · rintro ⟨hpresent, habsent⟩
    exact ⟨fun k hk => hpresent k ((hmem k).mpr hk), fun hk => habsent (mt hkey.mp hk)⟩
  · rintro ⟨hpresent, habsent⟩
    exact ⟨fun k hk => hpresent k ((hmem k).mp hk), fun hk => habsent (mt hkey.mpr hk)⟩

/-- From nothing, members give a setting its choice. -/
theorem exists_part_none_iff {standard a : α} :
    (∃ new, Part nameOf name members none new ∧ a = new.getD standard) ↔
      Given nameOf standard (fun j => (name, j) ∈ members) a := by
  constructor
  · rintro ⟨new, hpart, rfl⟩
    refine ⟨fun j hj => ?_, fun hnone => ?_⟩
    · obtain ⟨-, a, ha, rfl⟩ := hpart.present j hj
      exact ha
    · have hname : name ∉ members.map Prod.fst := by
        simpa using hnone
      rw [hpart.absent hname]
      rfl
  · intro h
    by_cases hname : name ∈ members.map Prod.fst
    · exact ⟨some a, ⟨fun j hj => ⟨rfl, a, h.named j hj, rfl⟩, absurd hname⟩, rfl⟩
    · refine ⟨none, (part_of_notMem hname).mpr rfl, h.absent fun j hj => ?_⟩
      exact hname (List.mem_map_of_mem hj)

end Part

/-- Members fill a draft exactly if their names are distinct and those of settings, and each setting
becomes what they say. -/
theorem Draft.fills_iff {d d' : Draft} {members : List (String × Json)} :
    d.Fills members d' ↔ (members.map Prod.fst).Nodup ∧
      (∀ name ∈ members.map Prod.fst, name = "tokenizer" ∨ name = "line_ending") ∧
      Part Strategy.name "tokenizer" members d.strategy d'.strategy ∧
      Part LineEnding.name "line_ending" members d.lineEnding d'.lineEnding := by
  constructor
  · intro h
    induction h with
    | nil =>
        refine ⟨List.nodup_nil, by simp, ?_, ?_⟩ <;> exact (part_of_notMem (by simp)).mpr rfl
    | cons hputs _ ih =>
        obtain ⟨hnodup, hnames, hstrategy, hending⟩ := ih
        rw [List.map_cons, List.nodup_cons, List.forall_mem_cons]
        cases hputs with
        | strategy hname =>
            have hfresh := hstrategy.notMem_of_some
            exact ⟨⟨hfresh, hnodup⟩, ⟨.inl rfl, hnames⟩,
              (part_cons_self hfresh).mpr ⟨rfl, _, hname, hstrategy⟩,
              (part_cons_of_ne (by decide)).mpr hending⟩
        | lineEnding hname =>
            have hfresh := hending.notMem_of_some
            exact ⟨⟨hfresh, hnodup⟩, ⟨.inr rfl, hnames⟩,
              (part_cons_of_ne (by decide)).mpr hstrategy,
              (part_cons_self hfresh).mpr ⟨rfl, _, hname, hending⟩⟩
  · rintro ⟨hnodup, hnames, hstrategy, hending⟩
    -- the draft grows from the first member on, so it must be any draft
    induction members generalizing d with
    | nil =>
        have hsame : d' = d := by
          obtain ⟨strategy, ending⟩ := d
          obtain ⟨strategy', ending'⟩ := d'
          simpa using ⟨hstrategy.absent (by simp), hending.absent (by simp)⟩
        rw [hsame]
        exact .nil
    | cons member members ih =>
        obtain ⟨name, j⟩ := member
        obtain ⟨strategy, ending⟩ := d
        rw [List.map_cons, List.nodup_cons] at hnodup
        rw [List.map_cons, List.forall_mem_cons] at hnames
        obtain ⟨hfresh, hnodup⟩ := hnodup
        obtain ⟨rfl | rfl, hnames⟩ := hnames
        · obtain ⟨rfl, s, hname, hrest⟩ := (part_cons_self hfresh).mp hstrategy
          rw [part_cons_of_ne (by decide)] at hending
          have hputs : Draft.Puts ⟨none, ending⟩ .strategy j ⟨some s, ending⟩ := .strategy hname
          exact .cons hputs (ih hnodup hnames hrest hending)
        · obtain ⟨rfl, e, hname, hrest⟩ := (part_cons_self hfresh).mp hending
          rw [part_cons_of_ne (by decide)] at hstrategy
          have hputs : Draft.Puts ⟨strategy, none⟩ .lineEnding j ⟨strategy, some e⟩ :=
            .lineEnding hname
          exact .cons hputs (ih hnodup hnames hstrategy hrest)

/-- What members make of an empty draft is what their object denotes. -/
theorem Draft.fills_empty_iff {members : List (String × Json)} {config : Config} :
    (∃ d, Draft.empty.Fills members d ∧ config = d.toConfig) ↔
      Denotes (.object members) config := by
  obtain ⟨strategy, ending⟩ := config
  constructor
  · rintro ⟨d, hfills, hconfig⟩
    obtain ⟨hnodup, hnames, hstrategy, hending⟩ := Draft.fills_iff.mp hfills
    obtain ⟨hs, he⟩ := Config.mk.inj hconfig
    exact .object hnodup hnames (exists_part_none_iff.mp ⟨_, hstrategy, hs⟩)
      (exists_part_none_iff.mp ⟨_, hending, he⟩)
  · rintro ⟨hnodup, hnames, hstrategy, hending⟩
    obtain ⟨s, hs, rfl⟩ := exists_part_none_iff.mpr hstrategy
    obtain ⟨e, he, rfl⟩ := exists_part_none_iff.mpr hending
    exact ⟨⟨s, e⟩, Draft.fills_iff.mpr ⟨hnodup, hnames, hs, he⟩, rfl⟩

/-! ### Objects, arrays and whole texts -/

/-- An object gives a configuration exactly if its members denote it. -/
theorem readObject_eq_ok_iff {cs rest : List Char} {config : Config} :
    readObject cs = .ok (config, rest) ↔
      ∃ members, MembersAt cs members rest ∧ Denotes (.object members) config := by
  simp only [← Draft.fills_empty_iff]
  constructor
  · intro h
    unfold readObject at h
    split at h
    · contradiction
    · rename_i hbrace
      cases h
      exact ⟨[], .none ((skipGaps_eq_cons_iff (by decide)).mp hbrace), _, .nil, rfl⟩
    · rename_i ds hquote
      obtain ⟨⟨d, behind⟩, hread, heq⟩ := map_eq_ok_iff.mp h
      obtain ⟨rfl, rfl⟩ := Prod.mk.inj heq
      obtain ⟨members, hne, hmembers, hfills⟩ := readMembers_eq_ok_iff.mp hread
      refine ⟨members, ?_, d, hfills, rfl⟩
      cases hmembers with
      | none _ => contradiction
      | some hmember hmore => exact .some ((memberAt_quote_iff hquote).mp hmember) hmore
    · contradiction
  · rintro ⟨members, hmembers, d, hfills, rfl⟩
    cases hmembers with
    | none hbrace =>
        cases hfills
        rw [readObject, (skipGaps_eq_cons_iff (by decide)).mpr hbrace]
        rfl
    | some hmember hmore =>
        obtain ⟨ds, _, _, hquote, _⟩ := memberAt_iff.mp hmember
        have hread := readMembers_eq_ok_iff.mpr
          ⟨_, List.cons_ne_nil _ _, .some ((memberAt_quote_iff hquote).mpr hmember) hmore, hfills⟩
        rw [readObject, hquote]
        exact map_eq_ok_iff.mpr ⟨_, hread, rfl⟩

section Array

variable {α : Type} {nameOf : α → String} {standard a : α}

/-- A setting for which nothing is written is given its standard value. -/
theorem given_none_iff :
    Given nameOf standard ((none : Option Json) = some ·) a ↔ a = standard := by
  constructor
  · intro h
    exact h.absent fun j => (Option.some_ne_none j).symm
  · intro h
    exact ⟨fun j hj => absurd hj.symm (Option.some_ne_none j), fun _ => h⟩

/-- A setting for which a value is written is given what the value names. -/
theorem given_some_iff {j : Json} :
    Given nameOf standard (some j = some ·) a ↔ Names nameOf a j := by
  constructor
  · intro h
    exact h.named j rfl
  · intro h
    exact ⟨fun k hk => Option.some.inj hk ▸ h, fun hnone => absurd rfl (hnone j)⟩

end Array

/-- An empty array denotes the standard configuration. -/
theorem denotes_no_items_iff {config : Config} :
    Denotes (.array []) config ↔ config = standard := by
  obtain ⟨strategy, ending⟩ := config
  constructor
  · intro h
    cases h with
    | array _ hstrategy hending =>
        exact congrArg₂ Config.mk (given_none_iff.mp hstrategy) (given_none_iff.mp hending)
  · rintro ⟨⟩
    exact .array (by decide) (given_none_iff.mpr rfl) (given_none_iff.mpr rfl)

/-- The only item of an array names the strategy, and the line ending is the standard one. -/
theorem denotes_one_item_iff {j : Json} {config : Config} : Denotes (.array [j]) config ↔
    Names Strategy.name config.strategy j ∧ config.lineEnding = .standard := by
  constructor
  · intro h
    cases h with
    | array _ hstrategy hending =>
        exact ⟨given_some_iff.mp hstrategy, given_none_iff.mp hending⟩
  · rintro ⟨hstrategy, hending⟩
    exact .array (by simp) (given_some_iff.mpr hstrategy) (given_none_iff.mpr hending)

/-- Of two items the first names the strategy and the second the line ending. -/
theorem denotes_two_items_iff {j k : Json} {config : Config} : Denotes (.array [j, k]) config ↔
    Names Strategy.name config.strategy j ∧ Names LineEnding.name config.lineEnding k := by
  constructor
  · intro h
    cases h with
    | array _ hstrategy hending =>
        exact ⟨given_some_iff.mp hstrategy, given_some_iff.mp hending⟩
  · rintro ⟨hstrategy, hending⟩
    exact .array (by simp) (given_some_iff.mpr hstrategy) (given_some_iff.mpr hending)

/-- Behind the first item the array ends, or there is a comma and the second one. -/
theorem readArray_of_item {cs behind : List Char} {strategy : Strategy} {j : Json}
    (hitem : ElementAt cs j behind) (hname : Names Strategy.name strategy j) :
    (∀ rest, skipGaps behind = ']' :: rest →
        readArray cs = .ok (⟨strategy, .standard⟩, rest)) ∧
      ∀ ds es rest ending, skipGaps behind = ',' :: ds → readLineEnding ds = .ok (ending, es) →
        mark ']' es = .ok rest → readArray cs = .ok (⟨strategy, ending⟩, rest) := by
  have hread : readStrategy (skipGaps cs) = .ok (strategy, behind) :=
    readStrategy_eq_ok_iff.mpr ⟨j, elementAt_skipGaps.mpr hitem, hname⟩
  obtain ⟨c, cs', hhead, hc⟩ := (elementAt_iff.mp hitem).head
  have harray := readArray.eq_def cs
  rw [hhead] at harray hread
  split at harray
  · contradiction
  · rename_i heq
    obtain ⟨rfl, -⟩ := List.cons.inj heq
    exact absurd hc (by decide)
  · rw [harray]
    constructor
    · intro rest hbracket
      refine bind_eq_ok_iff.mpr ⟨_, hread, ?_⟩
      simp only [hbracket]
      rfl
    · intro ds es rest ending hcomma hending hbracket
      refine bind_eq_ok_iff.mpr ⟨_, hread, ?_⟩
      simp only [hcomma]
      refine bind_eq_ok_iff.mpr ⟨_, hending, ?_⟩
      exact bind_eq_ok_iff.mpr ⟨_, hbracket, rfl⟩

/-- An array gives a configuration exactly if its items denote it. -/
theorem readArray_eq_ok_iff {cs rest : List Char} {config : Config} :
    readArray cs = .ok (config, rest) ↔
      ∃ items, ItemsAt cs items rest ∧ Denotes (.array items) config := by
  constructor
  · intro h
    unfold readArray at h
    split at h
    · contradiction
    · -- the bracket is closed at once
      rename_i hbracket
      cases h
      exact ⟨[], .none ((skipGaps_eq_cons_iff (by decide)).mp hbracket),
        denotes_no_items_iff.mpr rfl⟩
    · -- the first item names the strategy, and a second one may name the line ending
      obtain ⟨⟨strategy, behind⟩, hfirst, h⟩ := bind_eq_ok_iff.mp h
      obtain ⟨j, hitem, hstrategy⟩ := readStrategy_eq_ok_iff.mp hfirst
      rw [elementAt_skipGaps] at hitem
      simp only at h
      split at h
      · contradiction
      · rename_i hbracket
        cases h
        exact ⟨[j], .some hitem (.close ((skipGaps_eq_cons_iff (by decide)).mp hbracket)),
          denotes_one_item_iff.mpr ⟨hstrategy, rfl⟩⟩
      · rename_i hcomma
        obtain ⟨⟨ending, behindSecond⟩, hsecond, h⟩ := bind_eq_ok_iff.mp h
        obtain ⟨behindBracket, hbracket, h⟩ := bind_eq_ok_iff.mp h
        cases h
        obtain ⟨k, hitem', hending⟩ := readLineEnding_eq_ok_iff.mp hsecond
        exact ⟨[j, k], .some hitem (.comma ((skipGaps_eq_cons_iff (by decide)).mp hcomma) hitem'
          (.close ((mark_eq_ok_iff (by decide)).mp hbracket))),
          denotes_two_items_iff.mpr ⟨hstrategy, hending⟩⟩
      · contradiction
  · rintro ⟨items, hitems, hdenotes⟩
    obtain ⟨strategy, ending⟩ := config
    cases hitems with
    | none hbracket =>
        rw [denotes_no_items_iff.mp hdenotes, readArray,
          (skipGaps_eq_cons_iff (by decide)).mpr hbracket]
        rfl
    | some hitem hmore =>
        cases hmore with
        | close hbracket =>
            obtain ⟨hstrategy, rfl⟩ := denotes_one_item_iff.mp hdenotes
            exact (readArray_of_item hitem hstrategy).1 _
              ((skipGaps_eq_cons_iff (by decide)).mpr hbracket)
        | comma hcomma hitem' hmore' =>
            cases hmore' with
            | close hbracket =>
                obtain ⟨hstrategy, hending⟩ := denotes_two_items_iff.mp hdenotes
                exact (readArray_of_item hitem hstrategy).2 _ _ _ _
                  ((skipGaps_eq_cons_iff (by decide)).mpr hcomma)
                  (readLineEnding_eq_ok_iff.mpr ⟨_, hitem', hending⟩)
                  ((mark_eq_ok_iff (by decide)).mpr hbracket)
            | comma _ _ _ =>
                -- a third item denotes nothing
                cases hdenotes with
                | array hlength _ _ =>
                    simp only [List.length_cons] at hlength
                    omega

/-- A configuration is read at the front of a text exactly if a value that denotes it stands
there. -/
theorem readFront_eq_ok_iff {cs rest : List Char} {config : Config} :
    readFront cs = .ok (config, rest) ↔ ∃ j, ElementAt cs j rest ∧ Denotes j config := by
  simp only [elementAt_iff]
  rw [readFront]
  generalize skipGaps cs = ds
  constructor
  · intro h
    split at h
    · obtain ⟨items, hitems, hdenotes⟩ := readArray_eq_ok_iff.mp h
      exact ⟨_, .array hitems, hdenotes⟩
    · obtain ⟨members, hmembers, hdenotes⟩ := readObject_eq_ok_iff.mp h
      exact ⟨_, .object hmembers, hdenotes⟩
    · exact absurd h (unwanted_ne_ok _ _ _)
  · rintro ⟨j, hvalue, hdenotes⟩
    cases hvalue with
    | array hitems => exact readArray_eq_ok_iff.mpr ⟨_, hitems, hdenotes⟩
    | object hmembers => exact readObject_eq_ok_iff.mpr ⟨_, hmembers, hdenotes⟩
    | _ => cases hdenotes

/-- A text gives a configuration exactly if it is that of a value that denotes it. -/
theorem read_eq_ok_iff {text : String} {config : Config} :
    read text = .ok config ↔ ∃ j, IsText text j ∧ Denotes j config := by
  constructor
  · intro h
    obtain ⟨⟨c, rest⟩, hfront, h⟩ := bind_eq_ok_iff.mp h
    obtain ⟨j, helement, hdenotes⟩ := readFront_eq_ok_iff.mp hfront
    simp only [List.isEmpty_iff] at h
    split at h
    · rename_i hend
      cases h
      exact ⟨j, ⟨rest, helement, skipGaps_eq_nil_iff.mp hend⟩, hdenotes⟩
    · contradiction
  · rintro ⟨j, ⟨rest, helement, hend⟩, hdenotes⟩
    refine bind_eq_ok_iff.mpr ⟨_, readFront_eq_ok_iff.mpr ⟨j, helement, hdenotes⟩, ?_⟩
    simp only [skipGaps_eq_nil_iff.mpr hend, List.isEmpty_nil, if_true]

/-- A text given on the spot is read like any other. -/
theorem ofString_eq_ok_iff {text : String} {config : Config} :
    ofString text = .ok config ↔ ∃ j, IsText text j ∧ Denotes j config := by
  rw [← read_eq_ok_iff, ofString, ofText, mapError_eq_ok_iff]

/-- A text is accepted exactly if it is that of a value that denotes a configuration, and this is
what it gives.  As a text has one value only, nothing else in it can matter: not the gaps, nor how
its characters are escaped, nor, for an object, the order of its members. -/
theorem configurations_are_what_is_written (text : String) (config : Config) :
    (ofString text = .ok config ↔ ∃ j, IsText text j ∧ Denotes j config) ∧
      (∀ j, IsText text j → (ofString text = .ok config ↔ Denotes j config)) ∧
      ∀ members members' text', members.Perm members' → IsText text (.object members) →
        IsText text' (.object members') →
          (ofString text' = .ok config ↔ ofString text = .ok config) := by
  have hvalue : ∀ text j, IsText text j → (ofString text = .ok config ↔ Denotes j config) := by
    intro text j htext
    rw [ofString_eq_ok_iff]
    constructor
    · rintro ⟨k, htext', hdenotes⟩
      rwa [htext.unique htext']
    · intro hdenotes
      exact ⟨j, htext, hdenotes⟩
  refine ⟨ofString_eq_ok_iff, hvalue text, fun members members' text' hperm htext htext' => ?_⟩
  rw [hvalue text _ htext, hvalue text' _ htext']
  exact ⟨fun h => h.perm hperm.symm, fun h => h.perm hperm⟩

/-- Both settings are found in either order, also if an escape begins a name, and in an array; what
is left out has its standard value, and a name that is misspelt is not passed over. -/
theorem configurations_are_what_is_written_in_either_order :
    let text := "\x7b\"tokenizer\" :\x7b\"sequential\":null\x7d,\n\"line_ending\":\"crlf\"\x7d\r\n"
    let text' := "\x7b\"\\u006Cine_ending\":\"crlf\",\"tokenizer\":\x7b\"sequential\":null\x7d\x7d"
    ofString text = .ok ⟨.sequential, .crlf⟩ ∧ ofString text' = .ok ⟨.sequential, .crlf⟩ ∧
      ofString "[\"precedence\",\"lf\"]" = .ok ⟨.precedence, .lf⟩ ∧
      ofString "\x7b\x7d" = .ok ⟨.precedence, .lf⟩ ∧
      ofString "\x7b\"line_ending\":\"crlf\"\x7d" = .ok ⟨.precedence, .crlf⟩ ∧
      ∀ config, ofString "\x7b\"tokenizr\":\"sequential\"\x7d" ≠ .ok config := by
  intro text text'
  let keyed : Json := .object [("sequential", .null)]
  have hkeyed (rest : List Char) : ElementAt ('\x7b' :: '"' :: ("sequential".toList ++ '"' :: ':' ::
      ("null".toList ++ '\x7d' :: rest))) keyed rest :=
    .mk .nil (.object (.some (.of_plain (by decide) (.mk .nil .null)) (.close .nil)))
  have htext : IsText text (.object [("tokenizer", keyed), ("line_ending", .string "crlf")]) := by
    have hfront : text.toList = '\x7b' :: '"' :: ("tokenizer".toList ++ '"' :: ' ' :: ':' ::
        '\x7b' :: '"' :: ("sequential".toList ++ '"' :: ':' :: ("null".toList ++ '\x7d' :: ',' ::
        '\n' :: '"' :: ("line_ending".toList ++ '"' :: ':' :: '"' :: ("crlf".toList ++ '"' ::
        '\x7d' :: "\r\n".toList))))) := by
      decide +kernel
    rw [IsText, hfront]
    exact ⟨"\r\n".toList, .mk .nil (.object (.some (.mk .nil (.of_plain (by decide) _)
      (gaps_skipGaps _) (hkeyed _)) (.comma .nil (.mk (gaps_skipGaps _) (.of_plain (by decide) _)
      .nil (.of_plain (by decide) _)) (.close .nil)))), gaps_skipGaps _⟩
  have htext' : IsText text' (.object [("line_ending", .string "crlf"), ("tokenizer", keyed)]) := by
    have hfront : text'.toList = '\x7b' :: '"' :: '\\' :: 'u' :: '0' :: '0' :: '6' :: 'C' ::
        ("ine_ending".toList ++ '"' :: ':' :: '"' :: ("crlf".toList ++ '"' :: ',' :: '"' ::
        ("tokenizer".toList ++ '"' :: ':' :: '\x7b' :: '"' :: ("sequential".toList ++ '"' :: ':' ::
        ("null".toList ++ ['\x7d', '\x7d']))))) := by
      decide +kernel
    have hescape (rest : List Char) :
        CharAt ('\\' :: 'u' :: '0' :: '0' :: '6' :: 'C' :: rest) 'l' rest :=
      .unit (.mk (i := 0) (j := 0) (k := 6) (l := 12) rfl rfl rfl rfl) (.inl (by decide))
    rw [IsText, hfront]
    exact ⟨[], .mk .nil (.object (.some (.mk .nil (.char (hescape _) (.of_plain (by decide) _)) .nil
      (.of_plain (by decide) _)) (.comma .nil (.of_plain (by decide) (hkeyed _)) (.close .nil)))),
      .nil⟩
  have hdenotes : Denotes (.object [("tokenizer", keyed), ("line_ending", .string "crlf")])
      ⟨.sequential, .crlf⟩ := by
    have hstrategy : Names Strategy.name .sequential keyed := .keyed
    have hending : Names LineEnding.name .crlf (.string "crlf") := .bare
    exact Draft.fills_empty_iff.mp
      ⟨_, .cons (.strategy hstrategy) (.cons (.lineEnding hending) .nil), rfl⟩
  have harray : IsText "[\"precedence\",\"lf\"]" (.array [.string "precedence", .string "lf"]) := by
    have hfront : "[\"precedence\",\"lf\"]".toList = '[' :: '"' :: ("precedence".toList ++ '"' ::
        ',' :: '"' :: ("lf".toList ++ '"' :: [']'])) := by
      decide +kernel
    rw [IsText, hfront]
    exact ⟨[], .mk .nil (.array (.some (.of_plain (by decide) _)
      (.comma .nil (.of_plain (by decide) _) (.close .nil)))), .nil⟩
  have harrayDenotes :
      Denotes (.array [.string "precedence", .string "lf"]) ⟨.precedence, .lf⟩ := by
    refine .array (by decide) ⟨?_, fun h => absurd rfl (h _)⟩ ⟨?_, fun h => absurd rfl (h _)⟩
    · rintro j ⟨⟩
      exact .bare
    · rintro j ⟨⟩
      exact .bare
  have hempty : IsText "\x7b\x7d" (.object []) := by
    have hfront : "\x7b\x7d".toList = ['\x7b', '\x7d'] := by decide
    rw [IsText, hfront]
    exact ⟨[], .mk .nil (.object (.none .nil)), .nil⟩
  have hemptyDenotes : Denotes (.object []) ⟨.precedence, .lf⟩ :=
    Draft.fills_empty_iff.mp ⟨_, .nil, rfl⟩
  have hending : IsText "\x7b\"line_ending\":\"crlf\"\x7d"
      (.object [("line_ending", .string "crlf")]) := by
    exact .of_plain_member (by decide) (by decide) (by decide +kernel)
  have hendingDenotes : Denotes (.object [("line_ending", .string "crlf")])
      ⟨.precedence, .crlf⟩ := by
    have hnames : Names LineEnding.name .crlf (.string "crlf") := .bare
    exact Draft.fills_empty_iff.mp ⟨_, .cons (.lineEnding hnames) .nil, rfl⟩
  have hmisspelt : IsText "\x7b\"tokenizr\":\"sequential\"\x7d"
      (.object [("tokenizr", .string "sequential")]) := by
    exact .of_plain_member (by decide) (by decide) (by decide +kernel)
  obtain ⟨-, hvalue, hother⟩ := configurations_are_what_is_written text ⟨.sequential, .crlf⟩
  have hread := (hvalue _ htext).mpr hdenotes
  refine ⟨hread, (hother _ _ text' (.swap _ _ _) htext htext').mpr hread,
    ((configurations_are_what_is_written _ _).2.1 _ harray).mpr harrayDenotes,
    ((configurations_are_what_is_written _ _).2.1 _ hempty).mpr hemptyDenotes,
    ((configurations_are_what_is_written _ _).2.1 _ hending).mpr hendingDenotes, fun config h => ?_⟩
  obtain ⟨-, hrefused, -⟩ := configurations_are_what_is_written _ config
  cases (hrefused _ hmisspelt).mp h with
  | object _ hnames _ _ => exact absurd (hnames "tokenizr" (by simp)) (by decide)

end ErrorQuery.Config

import Daq.Proofs.Json.Tokens

set_option autoImplicit false

/-!
# Reading JSON documents that were written

A document is written over several lines and read back value by value. What is read is the document
itself, except that a number with a fraction is what its digits denote. The text of every value ends
where a comma or a line break follows, so the reader stops there; and as every step of the reader
takes a character, the length of the text is fuel enough.

## Main definitions

* `Daq.Json.stored` — what a document is read back as.
* `Daq.Json.Legible` — which documents are read back.

## Main results

* `Daq.Json.readsBack` — a value is read back, whatever ends it.
* `Daq.Json.read_render` — a document is read back.
-/

namespace Daq.Json

/-! ### What is read back -/

/-- What the text of a number is read as; a text that is no number is not readable. -/
def numberOf (text : String) : Document :=
  match Numeral.read text.toList with
  | some (n, []) => n.value
  | _ => .unreadable

/-- Whether a text is a number. -/
def IsNumber (text : String) : Prop := ∃ n, Numeral.read text.toList = some (n, [])

/-- A text that is readable is a number. -/
lemma isNumber_of_ne {text : String} (h : numberOf text ≠ .unreadable) : IsNumber text := by
  unfold numberOf at h
  split at h
  · rename_i n heq
    exact ⟨n, heq⟩
  · exact absurd rfl h

/-- A number is read as what it denotes. -/
lemma IsNumber.denotes {text : String} (h : IsNumber text) :
    Numeral.Denotes text.toList (numberOf text) := by
  obtain ⟨n, hn⟩ := h
  exact ⟨n, hn, by rw [numberOf, hn]⟩

mutual

/-- What a document is read back as: a number with a fraction is what its digits denote. -/
def stored : Document → Document
  | .null => .null
  | .unreadable => .unreadable
  | .bool b => .bool b
  | .integer n => .integer n
  | .float x => numberOf (doubleLayout.double x)
  | .single x => numberOf (singleLayout.single x)
  | .text s => .text s
  | .list items => .list (storedItems items)
  | .record members => .record (storedMembers members)

/-- What the items of a list are read back as. -/
def storedItems : List Document → List Document
  | [] => []
  | d :: items => stored d :: storedItems items

/-- What the members of a record are read back as. -/
def storedMembers : List (String × Document) → List (String × Document)
  | [] => []
  | (name, d) :: members => (name, stored d) :: storedMembers members

end

mutual

/-- Whether a document is read back: whole numbers fit sixty-four bits, and numbers with a fraction
are finite and written as numbers. -/
def Legible : Document → Prop
  | .null => True
  | .unreadable => False
  | .bool _ => True
  | .integer n => -integerBound ≤ n ∧ n < countBound
  | .float x => x.isFinite = true ∧ IsNumber (doubleLayout.double x)
  | .single x => x.isFinite = true ∧ IsNumber (singleLayout.single x)
  | .text _ => True
  | .list items => LegibleItems items
  | .record members => LegibleMembers members

/-- Whether all items of a list are read back. -/
def LegibleItems : List Document → Prop
  | [] => True
  | d :: items => Legible d ∧ LegibleItems items

/-- Whether all members of a record are read back. -/
def LegibleMembers : List (String × Document) → Prop
  | [] => True
  | (_, d) :: members => Legible d ∧ LegibleMembers members

end

/-- The items of a list are read back one by one. -/
lemma storedItems_eq (ds : List Document) : storedItems ds = ds.map stored := by
  induction ds with
  | nil => rfl
  | cons d ds ih => rw [storedItems, ih, List.map_cons]

/-- The members of a record are read back one by one. -/
lemma storedMembers_eq (ms : List (String × Document)) :
    storedMembers ms = ms.map fun m => (m.1, stored m.2) := by
  induction ms with
  | nil => rfl
  | cons m ms ih => rw [storedMembers, ih, List.map_cons]

/-! ### Steps of the reader -/

/-- A new line does not matter to what follows. -/
lemma skipBlanks_newLine (level : Nat) (s : List Char) :
    skipBlanks ((newLine level).toList ++ s) = skipBlanks s := by
  have hspaces : ∀ n, skipBlanks (List.replicate n ' ' ++ s) = skipBlanks s := by
    intro n
    induction n with
    | zero => rfl
    | succ n ih => exact ih
  rw [newLine, String.toList_ofList]
  exact hspaces (2 * level)

/-- A new line takes a character. -/
lemma length_newLine (level : Nat) : 1 ≤ (newLine level).toList.length := by
  rw [newLine, String.toList_ofList]
  simp

/-- Blanks before a value do not matter. -/
lemma value_congr (fuel : Nat) {s t : List Char} (h : skipBlanks s = skipBlanks t) :
    value fuel s = value fuel t := by
  cases fuel with
  | zero => rw [value, value]
  | succ fuel => rw [value, value, h]

/-- What the reader of a list does after an item. -/
def itemsAfter (fuel : Nat) (item : Document) (s : List Char) :
    Option (List Document × List Char) :=
  match skipBlanks s with
  | ']' :: rest => some ([item], rest)
  | ',' :: rest => do
    let (tail, rest) ← items fuel rest
    some (item :: tail, rest)
  | _ => none

/-- The items of a list are an item and what follows. -/
lemma items_succ (fuel : Nat) (s : List Char) :
    items (fuel + 1) s = (value fuel s).bind fun r => itemsAfter fuel r.1 r.2 := by
  rw [items]
  rfl

/-- What the reader of a record does after a member. -/
def membersAfter (fuel : Nat) (name : Option String) (item : Document) (s : List Char) :
    Option (List (Option String × Document) × List Char) :=
  match skipBlanks s with
  | '\x7d' :: rest => some ([(name, item)], rest)
  | ',' :: rest => do
    let (tail, rest) ← members fuel rest
    some ((name, item) :: tail, rest)
  | _ => none

/-- The members of a record are a name, a value and what follows. -/
lemma members_succ (fuel : Nat) (name : String) {s t : List Char}
    (h : skipBlanks s = (literal name).toList ++ ':' :: t) :
    members (fuel + 1) s = (value fuel t).bind fun r => membersAfter fuel (some name) r.1 r.2 := by
  have hs : skipBlanks s = '"' :: (name.toList.flatMap escapeChar ++ '"' :: ':' :: t) := by
    rw [h, literal, String.toList_ofList]
    simp
  rw [members, hs]
  simp only [Literal.read_literal, Option.bind_eq_bind, Option.bind_some]
  rfl

/-- Members that all have names make a record. -/
lemma recordOf_some (members : List (String × Document)) :
    recordOf (members.map fun m => (some m.1, m.2)) = .record members := by
  have h : (members.map fun m => (some m.1, m.2)).mapM
      (fun m : Option String × Document => m.1.map fun name => (name, m.2)) = some members := by
    induction members with
    | nil => rfl
    | cons m members ih =>
      rw [List.map_cons, List.mapM_cons, ih]
      rfl
  rw [recordOf, h]

/-- A number is a value. -/
lemma value_number (fuel : Nat) {s rest : List Char} {d : Document} (h : Numeral.Denotes s d)
    (hrest : Ends rest) : value (fuel + 1) (s ++ rest) = some (d, rest) := by
  obtain ⟨n, hn, rfl⟩ := h
  obtain ⟨c, t, rfl, hc⟩ := Numeral.head_of_read hn
  have hread := Numeral.read_append (c :: t) hrest
  rw [hn, Option.map_some, List.nil_append] at hread
  have hdigit : ∀ e, (e = '-' ∨ (Numeral.digit? e).isSome) → (e == ' ' || e == '\n' || e == '\t' ||
      e == '\r') = false ∧ e ≠ 'n' ∧ e ≠ 't' ∧ e ≠ 'f' ∧ e ≠ '"' ∧ e ≠ '[' ∧ e ≠ '\x7b' := by
    rintro e he
    refine ⟨?_, ?_, ?_, ?_, ?_, ?_, ?_⟩
    · by_contra hblank
      simp only [Bool.not_eq_false, Bool.or_eq_true, beq_iff_eq] at hblank
      obtain (((rfl | rfl) | rfl) | rfl) := hblank <;> revert he <;> decide
    all_goals
      rintro rfl
      revert he
      decide
  obtain ⟨hblank, hn', ht, hf, hq, hb, hr⟩ := hdigit c hc
  have hskip : skipBlanks (c :: t ++ rest) = c :: t ++ rest := by
    rw [skipBlanks, List.cons_append, List.dropWhile_cons_of_neg (by simp [hblank])]
  rw [value, hskip]
  split
  · rename_i heq
    exact absurd (List.cons.inj heq).1 hn'
  · rename_i heq
    exact absurd (List.cons.inj heq).1 ht
  · rename_i heq
    exact absurd (List.cons.inj heq).1 hf
  · rename_i heq
    exact absurd (List.cons.inj heq).1 hq
  · rename_i heq
    exact absurd (List.cons.inj heq).1 hb
  · rename_i heq
    exact absurd (List.cons.inj heq).1 hr
  · rw [hread]
    rfl

/-! ### Written forms -/

/-- The text of a literal. -/
lemma toList_literal (s : String) :
    (literal s).toList = '"' :: (s.toList.flatMap escapeChar ++ ['"']) := by
  rw [literal, String.toList_ofList]
  rfl

/-- The text of a list with items. -/
lemma toList_list (level : Nat) (d : Document) (items : List Document) :
    (renderAt level (.list (d :: items))).toList =
      '[' :: ((newLine (level + 1)).toList ++ ((renderAt (level + 1) d).toList ++
        ((renderItems (level + 1) items).toList ++ ((newLine level).toList ++ [']'])))) := by
  rw [renderAt]
  simp

/-- The text of further items. -/
lemma toList_items (level : Nat) (d : Document) (items : List Document) :
    (renderItems level (d :: items)).toList =
      ',' :: ((newLine level).toList ++ ((renderAt level d).toList ++
        (renderItems level items).toList)) := by
  rw [renderItems]
  simp

/-- The text of a record with members. -/
lemma toList_record (level : Nat) (name : String) (d : Document)
    (members : List (String × Document)) :
    (renderAt level (.record ((name, d) :: members))).toList =
      '\x7b' :: ((newLine (level + 1)).toList ++ ((literal name).toList ++ ':' :: ' ' ::
        ((renderAt (level + 1) d).toList ++ ((renderMembers (level + 1) members).toList ++
          ((newLine level).toList ++ ['\x7d']))))) := by
  rw [renderAt]
  simp

/-- The text of further members. -/
lemma toList_members (level : Nat) (name : String) (d : Document)
    (members : List (String × Document)) :
    (renderMembers level ((name, d) :: members)).toList =
      ',' :: ((newLine level).toList ++ ((literal name).toList ++ ':' :: ' ' ::
        ((renderAt level d).toList ++ (renderMembers level members).toList))) := by
  rw [renderMembers]
  simp

/-- A value does not start with a blank or with the end of a list. -/
lemma head_renderAt (level : Nat) {d : Document} (h : Legible d) :
    ∃ c t, (renderAt level d).toList = c :: t ∧ c ∉ [' ', '\n', '\t', '\r', ']'] := by
  have hnumber : ∀ {s : List Char} {d : Document}, Numeral.Denotes s d →
      ∃ c t, s = c :: t ∧ c ∉ [' ', '\n', '\t', '\r', ']'] := by
    rintro s d ⟨n, hn, -⟩
    obtain ⟨c, t, rfl, hc⟩ := Numeral.head_of_read hn
    refine ⟨c, t, rfl, ?_⟩
    intro hmem
    have hall : [' ', '\n', '\t', '\r', ']'].all
        (fun e => !(e == '-' || (Numeral.digit? e).isSome)) = true := by decide
    have hnone := List.all_eq_true.mp hall c hmem
    rcases hc with rfl | hdigit
    · cases hnone
    · simp [hdigit] at hnone
  cases d with
  | null => exact ⟨'n', ['u', 'l', 'l'], by rw [renderAt]; rfl, by decide⟩
  | unreadable => exact h.elim
  | bool b =>
    cases b
    · exact ⟨'f', ['a', 'l', 's', 'e'], by rw [renderAt]; rfl, by decide⟩
    · exact ⟨'t', ['r', 'u', 'e'], by rw [renderAt]; rfl, by decide⟩
  | integer n =>
    rw [renderAt]
    exact hnumber (Numeral.denotes_integer h.1 h.2)
  | float x =>
    rw [renderAt, if_pos h.1]
    exact hnumber h.2.denotes
  | single x =>
    rw [renderAt, if_pos h.1]
    exact hnumber h.2.denotes
  | text s => exact ⟨'"', _, by rw [renderAt, toList_literal], by decide⟩
  | list items =>
    cases items with
    | nil => exact ⟨'[', [']'], by rw [renderAt]; rfl, by decide⟩
    | cons d items => exact ⟨'[', _, toList_list level d items, by decide⟩
  | record members =>
    cases members with
    | nil => exact ⟨'\x7b', ['\x7d'], by rw [renderAt]; rfl, by decide⟩
    | cons m members => exact ⟨'\x7b', _, toList_record level m.1 m.2 members, by decide⟩

/-- What follows an item of a list ends it. -/
lemma ends_items (level outer : Nat) (items : List Document) (rest : List Char) :
    Ends ((renderItems level items).toList ++ ((newLine outer).toList ++ rest)) := by
  intro c hc
  cases items with
  | nil => exact .inr (by simpa [renderItems, newLine] using hc.symm)
  | cons d items => exact .inl (by simpa [toList_items] using hc.symm)

/-- What follows a member of a record ends it. -/
lemma ends_members (level outer : Nat) (members : List (String × Document)) (rest : List Char) :
    Ends ((renderMembers level members).toList ++ ((newLine outer).toList ++ rest)) := by
  intro c hc
  cases members with
  | nil => exact .inr (by simpa [renderMembers, newLine] using hc.symm)
  | cons m members => exact .inl (by simpa [toList_members level m.1 m.2] using hc.symm)

/-! ### Documents -/

/-- A text is read back. -/
lemma value_text (fuel level : Nat) (s : String) (rest : List Char) :
    value (fuel + 1) ((renderAt level (.text s)).toList ++ rest) = some (.text s, rest) := by
  have hskip : skipBlanks ((renderAt level (.text s)).toList ++ rest) =
      '"' :: (s.toList.flatMap escapeChar ++ '"' :: rest) := by
    rw [renderAt, toList_literal]
    simp [skipBlanks]
  rw [value, hskip]
  simp only [Literal.read_literal, Option.bind_eq_bind, Option.bind_some]
  rfl

/-- A list with items. -/
lemma value_bracket (fuel : Nat) {s : List Char} (h : ∀ t, skipBlanks s ≠ ']' :: t) :
    value (fuel + 1) ('[' :: s) =
      (items fuel (skipBlanks s)).map fun r => (.list r.1, r.2) := by
  have hopen : skipBlanks ('[' :: s) = '[' :: s := rfl
  rw [value, hopen]
  simp only [Option.bind_eq_bind]
  cases items fuel (skipBlanks s) <;> rfl

/-- A record with members. -/
lemma value_brace (fuel : Nat) {s : List Char} (h : ∀ t, skipBlanks s ≠ '\x7d' :: t) :
    value (fuel + 1) ('\x7b' :: s) =
      (members fuel (skipBlanks s)).map fun r => (recordOf r.1, r.2) := by
  have hopen : skipBlanks ('\x7b' :: s) = '\x7b' :: s := rfl
  rw [value, hopen]
  simp only [Option.bind_eq_bind]
  cases members fuel (skipBlanks s) <;> rfl

/-- A value stands where blanks end. -/
lemma skipBlanks_renderAt (level : Nat) {d : Document} (h : Legible d) (s : List Char) :
    skipBlanks ((renderAt level d).toList ++ s) = (renderAt level d).toList ++ s := by
  obtain ⟨c, t, ht, hc⟩ := head_renderAt level h
  simp only [List.mem_cons, not_or] at hc
  rw [ht, skipBlanks, List.cons_append, List.dropWhile_cons_of_neg]
  simp [hc]

/-- What is to be shown of a value: it is read back, whatever ends it. -/
def ReadsBack (d : Document) : Prop :=
  ∀ (level fuel : Nat) (rest : List Char), (renderAt level d).toList.length ≤ fuel → Ends rest →
    value fuel ((renderAt level d).toList ++ rest) = some (stored d, rest)

/-- What is to be shown of the items behind an item: they are read back up to the bracket. -/
def ItemsReadBack (ds : List Document) : Prop :=
  ∀ (level outer fuel : Nat) (item : Document) (rest : List Char),
    (renderItems level ds).toList.length ≤ fuel →
    itemsAfter fuel item
        ((renderItems level ds).toList ++ ((newLine outer).toList ++ ']' :: rest)) =
      some (item :: storedItems ds, rest)

/-- What is to be shown of the members behind a member: they are read back up to the brace. -/
def MembersReadBack (ms : List (String × Document)) : Prop :=
  ∀ (level outer fuel : Nat) (name : String) (item : Document) (rest : List Char),
    (renderMembers level ms).toList.length ≤ fuel →
    membersAfter fuel (some name) item
        ((renderMembers level ms).toList ++ ((newLine outer).toList ++ '\x7d' :: rest)) =
      some ((((name, item) :: storedMembers ms).map fun m => (some m.1, m.2)), rest)

/-- There is fuel for a value. -/
lemma exists_fuel {level fuel : Nat} {d : Document} (h : Legible d)
    (hfuel : (renderAt level d).toList.length ≤ fuel) : ∃ n, fuel = n + 1 := by
  obtain ⟨c, t, ht, -⟩ := head_renderAt level h
  rw [ht, List.length_cons] at hfuel
  exact ⟨fuel - 1, by omega⟩

/-- A list is read back if its items are. -/
lemma readsBack_list {d : Document} {ds : List Document} (h : Legible d) (hd : ReadsBack d)
    (hds : ItemsReadBack ds) : ReadsBack (.list (d :: ds)) := by
  intro level fuel rest hfuel _
  rw [toList_list] at hfuel ⊢
  simp only [List.length_cons, List.length_append] at hfuel
  obtain ⟨n, rfl⟩ : ∃ n, fuel = n + 2 := by
    obtain ⟨k, hk⟩ := exists_fuel h (Nat.le_refl (renderAt (level + 1) d).toList.length)
    exact ⟨fuel - 2, by omega⟩
  simp only [List.cons_append, List.append_assoc, List.nil_append]
  have hskip := skipBlanks_renderAt (level + 1) h
  rw [value_bracket]
  · rw [skipBlanks_newLine, hskip, items_succ,
      hd (level + 1) n _ (by omega) (ends_items (level + 1) level ds _), Option.bind_some,
      hds (level + 1) level n _ _ (by omega), stored, storedItems]
    rfl
  · intro t ht
    rw [skipBlanks_newLine, hskip] at ht
    obtain ⟨c, u, hu, hc⟩ := head_renderAt (level + 1) h
    rw [hu] at ht
    simp [(List.cons.inj ht).1] at hc

/-- The items behind an item are read back if the first of them and the others are. -/
lemma itemsReadBack_cons {d : Document} {ds : List Document} (hd : ReadsBack d)
    (hds : ItemsReadBack ds) : ItemsReadBack (d :: ds) := by
  intro level outer fuel item rest hfuel
  rw [toList_items] at hfuel ⊢
  simp only [List.length_cons, List.length_append] at hfuel
  obtain ⟨n, rfl⟩ : ∃ n, fuel = n + 1 := ⟨fuel - 1, by omega⟩
  have hbreak := length_newLine level
  have hcomma : ∀ s : List Char, itemsAfter (n + 1) item (',' :: s) =
      (items (n + 1) s).bind fun r => some (item :: r.1, r.2) := fun _ => rfl
  simp only [List.cons_append, List.append_assoc]
  rw [hcomma, items_succ, value_congr n (skipBlanks_newLine level _),
    hd level n _ (by omega) (ends_items level outer ds _), Option.bind_some,
    hds level outer n _ _ (by omega)]
  rfl

/-- A name stands where blanks end. -/
lemma skipBlanks_literal (name : String) (s : List Char) :
    skipBlanks ((literal name).toList ++ s) = (literal name).toList ++ s := by
  rw [toList_literal]
  rfl

/-- A record is read back if its members are. -/
lemma readsBack_record (name : String) {d : Document} {ms : List (String × Document)}
    (hd : ReadsBack d) (hms : MembersReadBack ms) : ReadsBack (.record ((name, d) :: ms)) := by
  intro level fuel rest hfuel _
  rw [toList_record] at hfuel ⊢
  simp only [List.length_cons, List.length_append] at hfuel
  obtain ⟨n, rfl⟩ : ∃ n, fuel = n + 2 := ⟨fuel - 2, by omega⟩
  have hspace : ∀ s : List Char, skipBlanks (' ' :: s) = skipBlanks s := fun _ => rfl
  simp only [List.cons_append, List.append_assoc, List.nil_append]
  rw [value_brace]
  · rw [members_succ n name, value_congr n (hspace _),
      hd (level + 1) n _ (by omega) (ends_members (level + 1) level ms _), Option.bind_some,
      hms (level + 1) level n name _ _ (by omega), Option.map_some, recordOf_some, stored,
      storedMembers]
    rw [skipBlanks_newLine, skipBlanks_literal, skipBlanks_literal]
  · intro t ht
    rw [skipBlanks_newLine, skipBlanks_literal, toList_literal] at ht
    simp at ht

/-- The members behind a member are read back if the first of them and the others are. -/
lemma membersReadBack_cons (name : String) {d : Document} {ms : List (String × Document)}
    (hd : ReadsBack d) (hms : MembersReadBack ms) : MembersReadBack ((name, d) :: ms) := by
  intro level outer fuel first item rest hfuel
  rw [toList_members] at hfuel ⊢
  simp only [List.length_cons, List.length_append] at hfuel
  obtain ⟨n, rfl⟩ : ∃ n, fuel = n + 1 := ⟨fuel - 1, by omega⟩
  have hcomma : ∀ s : List Char, membersAfter (n + 1) (some first) item (',' :: s) =
      (members (n + 1) s).bind fun r => some ((some first, item) :: r.1, r.2) := fun _ => rfl
  have hspace : ∀ s : List Char, skipBlanks (' ' :: s) = skipBlanks s := fun _ => rfl
  simp only [List.cons_append, List.append_assoc]
  rw [hcomma, members_succ n name, value_congr n (hspace _),
    hd level n _ (by omega) (ends_members level outer ms _), Option.bind_some,
    hms level outer n name _ _ (by omega)]
  · rfl
  · rw [skipBlanks_newLine, skipBlanks_literal]

/-- A list ends with its bracket. -/
lemma itemsReadBack_nil : ItemsReadBack [] := by
  intro level outer fuel item rest _
  have hbracket : skipBlanks (']' :: rest) = ']' :: rest := rfl
  rw [renderItems, itemsAfter, String.toList_empty, List.nil_append, skipBlanks_newLine, hbracket]
  rfl

/-- A record ends with its brace. -/
lemma membersReadBack_nil : MembersReadBack [] := by
  intro level outer fuel name item rest _
  have hbrace : skipBlanks ('\x7d' :: rest) = '\x7d' :: rest := rfl
  rw [renderMembers, membersAfter, String.toList_empty, List.nil_append, skipBlanks_newLine, hbrace]
  rfl

/-- A value that is no list with items and no record with members is read back. -/
lemma readsBack_leaf {d : Document} (h : Legible d) (hlist : ∀ e es, d ≠ .list (e :: es))
    (hrecord : ∀ m ms, d ≠ .record (m :: ms)) : ReadsBack d := by
  intro level fuel rest hfuel hrest
  obtain ⟨n, rfl⟩ := exists_fuel h hfuel
  cases d with
  | null =>
    rw [renderAt, stored, value]
    rfl
  | unreadable => exact h.elim
  | bool b =>
    rw [renderAt, stored, value]
    cases b <;> rfl
  | integer m =>
    rw [renderAt, stored]
    exact value_number n (Numeral.denotes_integer h.1 h.2) hrest
  | float x =>
    rw [renderAt, stored, if_pos h.1]
    exact value_number n h.2.denotes hrest
  | single x =>
    rw [renderAt, stored, if_pos h.1]
    exact value_number n h.2.denotes hrest
  | text s =>
    rw [stored]
    exact value_text n level s rest
  | list ds =>
    cases ds with
    | nil =>
      rw [renderAt, stored, storedItems, value]
      rfl
    | cons e es => exact absurd rfl (hlist e es)
  | record ms =>
    cases ms with
    | nil =>
      rw [renderAt, stored, storedMembers, value]
      rfl
    | cons m ms => exact absurd rfl (hrecord m ms)

/-- Items are read back if each of them is. -/
lemma itemsReadBack {ds : List Document} (h : ∀ d ∈ ds, ReadsBack d) : ItemsReadBack ds := by
  induction ds with
  | nil => exact itemsReadBack_nil
  | cons d ds ih => exact itemsReadBack_cons (h d (by simp)) (ih fun e he => h e (by simp [he]))

/-- Members are read back if each of them is. -/
lemma membersReadBack {ms : List (String × Document)} (h : ∀ m ∈ ms, ReadsBack m.2) :
    MembersReadBack ms := by
  induction ms with
  | nil => exact membersReadBack_nil
  | cons m ms ih =>
    exact membersReadBack_cons m.1 (h m (by simp)) (ih fun n hn => h n (by simp [hn]))

/-- Items are read back if each of them is. -/
lemma legibleItems_iff (ds : List Document) : LegibleItems ds ↔ ∀ d ∈ ds, Legible d := by
  induction ds with
  | nil => simp [LegibleItems]
  | cons d ds ih => simp [LegibleItems, ih]

/-- Members are read back if each of them is. -/
lemma legibleMembers_iff (ms : List (String × Document)) :
    LegibleMembers ms ↔ ∀ m ∈ ms, Legible m.2 := by
  induction ms with
  | nil => simp [LegibleMembers]
  | cons m ms ih => simp [LegibleMembers, ih]

/-- The value of a member is smaller than the member. -/
lemma sizeOf_snd_lt (m : String × Document) : sizeOf m.2 < sizeOf m := by
  obtain ⟨name, d⟩ := m
  rw [Prod.mk.sizeOf_spec]
  dsimp only
  omega

/-- **A value is read back, whatever ends it.** -/
theorem readsBack (d : Document) (h : Legible d) : ReadsBack d := by
  match d, h with
  | .list (d :: ds), h =>
    have hall := (legibleItems_iff _).mp h
    have hds : ∀ e ∈ ds, ReadsBack e := fun e he => readsBack e (hall e (by simp [he]))
    exact readsBack_list h.1 (readsBack d h.1) (itemsReadBack hds)
  | .record (m :: ms), h =>
    have hall := (legibleMembers_iff _).mp h
    have hm : ReadsBack m.2 := readsBack m.2 (hall m (by simp))
    have hms : ∀ n ∈ ms, ReadsBack n.2 := fun n hn => readsBack n.2 (hall n (by simp [hn]))
    exact readsBack_record m.1 hm (membersReadBack hms)
  | .list [], h => exact readsBack_leaf h (by simp) (by simp)
  | .record [], h => exact readsBack_leaf h (by simp) (by simp)
  | .null, h => exact readsBack_leaf h (by simp) (by simp)
  | .unreadable, h => exact h.elim
  | .bool _, h => exact readsBack_leaf h (by simp) (by simp)
  | .integer _, h => exact readsBack_leaf h (by simp) (by simp)
  | .float _, h => exact readsBack_leaf h (by simp) (by simp)
  | .single _, h => exact readsBack_leaf h (by simp) (by simp)
  | .text _, h => exact readsBack_leaf h (by simp) (by simp)
termination_by sizeOf d
decreasing_by
  · have hsize := List.sizeOf_lt_of_mem he
    simp
    omega
  · simp
    omega
  · have hsize := sizeOf_snd_lt m
    simp
    omega
  · have hsize := List.sizeOf_lt_of_mem hn
    have hsnd := sizeOf_snd_lt n
    simp
    omega

/-- **A document is read back.** -/
theorem read_render {d : Document} (h : Legible d) : read (render d) = some (stored d) := by
  have hread := readsBack d h 0 (2 * (render d).toList.length + 2) [] (by rw [render]; omega)
    (fun c hc => by cases hc)
  rw [List.append_nil] at hread
  unfold read
  dsimp only
  unfold render at hread ⊢
  rw [hread]
  rfl

end Daq.Json

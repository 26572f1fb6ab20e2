import Daq.Proofs.Toml.Literals
import Daq.Proofs.Toml.Numbers

set_option autoImplicit false

/-!
# Reading TOML lines that were written

A written document has four kinds of lines: assignments of values to bare names, headers of tables,
headers of lists of tables, and empty lines. Each kind is read for what it says, and the reader goes
on with the next line. A value is read back as itself, except that a number with a fraction is what
its digits denote.

## Main definitions

* `Daq.Toml.stored` — what a value is read back as.
* `Daq.Toml.IsValue` — which values are read back.
* `Daq.Toml.Parses` — a text read in a state gives a tree.

## Main results

* `Daq.Toml.value_renderValue` — a value is read back up to the end of its line.
* `Daq.Toml.Parses.assignment`, `Daq.Toml.Parses.table`, `Daq.Toml.Parses.listed`,
  `Daq.Toml.Parses.empty` — the kinds of lines.
-/

namespace Daq.Toml

/-! ### Values -/

/-- What the text of a number is read as; a text that is no number is not readable. -/
def numberOf (text : String) : Document :=
  match scalar text.toList with
  | some (d, []) => d
  | _ => .unreadable

/-- Whether a text is a number. -/
def IsNumber (text : String) : Prop := ∃ d, scalar text.toList = some (d, [])

/-- A text that is readable is a number. -/
lemma isNumber_of_ne {text : String} (h : numberOf text ≠ .unreadable) : IsNumber text := by
  unfold numberOf at h
  split at h
  · rename_i d heq
    exact ⟨d, heq⟩
  · exact absurd rfl h

/-- What a value on a line is read back as: a number with a fraction is what its digits denote. -/
def stored : Document → Document
  | .single x => numberOf (layout.double x.widen)
  | .float x => numberOf (layout.double x)
  | d => d

/-- Whether a value on a line is read back: whole numbers are counts and fit sixty-four bits with a
sign, and numbers with a fraction are written as numbers. -/
def IsValue : Document → Prop
  | .bool _ => True
  | .integer n => 0 ≤ n ∧ n < integerBound
  | .single x => IsNumber (layout.double x.widen)
  | .float x => IsNumber (layout.double x)
  | .text _ => True
  | .list [] => True
  | _ => False

/-- A number does not start with a blank and not like any other value. -/
lemma scalar_eq_none {c : Char} (hc : c ∈ [' ', '\t', '"', '\'', 't', 'f', '[', '\x7b'])
    (s : List Char) : scalar (c :: s) = none := by
  simp only [List.mem_cons, List.not_mem_nil, or_false] at hc
  rcases hc with rfl | rfl | rfl | rfl | rfl | rfl | rfl | rfl <;> rfl

/-- A number is read up to the end of its line. -/
lemma value_scalar (fuel depth : Nat) {s : List Char} {d : Document} (h : scalar s = some (d, []))
    (rest : List Char) :
    value (fuel + 1) depth (s ++ '\n' :: rest) = some (d, '\n' :: rest) := by
  have happend := scalar_append rest s
  rw [h, Option.map_some, List.nil_append] at happend
  -- none of the other values starts as a number does
  have hhead : ∀ c ∈ [' ', '\t', '"', '\'', 't', 'f', '[', '\x7b'], ∀ t,
      s ++ '\n' :: rest = c :: t → False := by
    intro c hc t heq
    rw [heq, scalar_eq_none hc] at happend
    cases happend
  rw [value]
  · exact happend
  · exact hhead _ (by decide)
  · exact hhead _ (by decide)
  · exact hhead _ (by decide)
  · exact hhead _ (by decide)
  · exact hhead _ (by decide)
  · exact hhead _ (by decide)

/-- A text literal starts with a quote. -/
lemma head_quote (s : String) : ∃ q t, (quote s).toList = q :: t ∧ (q = '"' ∨ q = '\'') := by
  unfold quote
  simp only [String.toList_ofList]
  split
  · exact ⟨_, _, rfl, .inl rfl⟩
  split
  · exact ⟨_, _, rfl, .inr rfl⟩
  split
  · exact ⟨_, _, rfl, .inl rfl⟩
  split
  · exact ⟨_, _, rfl, .inr rfl⟩
  split
  · exact ⟨_, _, rfl, .inl rfl⟩
  · exact ⟨_, _, rfl, .inl rfl⟩

/-- A text literal is read up to the end of its line. -/
lemma value_quote (fuel depth : Nat) (s : String) (rest : List Char) :
    value (fuel + 1) depth ((quote s).toList ++ '\n' :: rest) =
      some (.text s, '\n' :: rest) := by
  have hread := literal_quote s rest
  obtain ⟨q, t, ht, hq⟩ := head_quote s
  rw [ht] at hread ⊢
  rcases hq with rfl | rfl
  · rw [List.cons_append] at hread ⊢
    rw [value]
    simp [hread]
  · rw [List.cons_append] at hread ⊢
    rw [value]
    simp [hread]

/-- What the reader makes of the text of a value: the text does not start with a blank and is read
up to the end of its line. -/
def ReadsAs (text : String) (d : Document) : Prop :=
  (∀ s, skipBlanks (text.toList ++ s) = text.toList ++ s) ∧
    ∀ fuel rest, value (fuel + 2) 0 (text.toList ++ '\n' :: rest) = some (d, '\n' :: rest)

/-- The text of a number starts without a blank. -/
lemma skipBlanks_number {s : List Char} {d : Document} (h : scalar s = some (d, []))
    (t : List Char) : skipBlanks (s ++ t) = s ++ t := by
  cases s with
  | nil => cases h
  | cons c s =>
    rw [skipBlanks, List.cons_append, List.dropWhile_cons_of_neg]
    intro hblank
    simp only [Bool.or_eq_true, beq_iff_eq] at hblank
    rcases hblank with rfl | rfl
    · rw [scalar_eq_none (by decide)] at h
      cases h
    · rw [scalar_eq_none (by decide)] at h
      cases h

/-- A number is read as what it denotes. -/
lemma readsAs_number {text : String} (h : IsNumber text) : ReadsAs text (numberOf text) := by
  obtain ⟨d, hd⟩ := h
  have hnumber : numberOf text = d := by rw [numberOf, hd]
  rw [hnumber]
  exact ⟨fun s => skipBlanks_number hd s, fun fuel rest => value_scalar (fuel + 1) 0 hd rest⟩

/-- **A value is read back up to the end of its line.** -/
theorem value_renderValue {d : Document} (h : IsValue d) :
    ∃ text, renderValue d = some text ∧ ReadsAs text (stored d) := by
  cases d with
  | bool b =>
    refine ⟨_, by rw [renderValue], ?_, ?_⟩
    · intro s
      cases b <;> rfl
    · intro fuel rest
      cases b <;> rfl
  | integer n =>
    obtain ⟨hlow, hhigh⟩ := h
    obtain ⟨m, rfl⟩ := Int.eq_ofNat_of_zero_le hlow
    have hbounds : -integerBound ≤ (m : Int) ∧ (m : Int) < integerBound := by
      refine ⟨?_, hhigh⟩
      have hpos : 0 ≤ integerBound := by decide
      omega
    have hd := scalar_count hhigh
    exact ⟨_, by rw [renderValue, if_pos hbounds], fun s => skipBlanks_number hd s,
      fun fuel rest => value_scalar (fuel + 1) 0 hd rest⟩
  | float x => exact ⟨_, by rw [renderValue], readsAs_number h⟩
  | single x => exact ⟨_, by rw [renderValue], readsAs_number h⟩
  | text s =>
    refine ⟨_, by rw [renderValue], ?_, fun fuel rest => value_quote (fuel + 1) 0 s rest⟩
    intro t
    obtain ⟨q, u, hu, hq⟩ := head_quote s
    rw [hu]
    rcases hq with rfl | rfl <;> rfl
  | list items =>
    cases items with
    | nil =>
      refine ⟨"[]", ?_, fun _ => rfl, ?_⟩
      · rw [renderValue, renderValues]
        rfl
      · exact fun _ _ => rfl
    | cons d items => exact h.elim
  | null => exact h.elim
  | unreadable => exact h.elim
  | record members => exact h.elim

/-! ### Names -/

/-- Names that are written without quotes. -/
def IsName (name : String) : Prop := name.toList ≠ [] ∧ ∀ c ∈ name.toList, isBare c = true

/-- Whether a name needs quotes is decided character by character. -/
instance (name : String) : Decidable (IsName name) :=
  decidable_of_iff (name.toList ≠ [] ∧ name.toList.all isBare = true) (by simp [IsName])

/-- A bare name is written as it is. -/
lemma renderName_eq {name : String} (h : IsName name) : renderName name = name := by
  unfold renderName
  dsimp only
  rw [if_pos]
  simp only [Bool.and_eq_true, Bool.not_eq_true', List.isEmpty_eq_false_iff, List.all_eq_true]
  exact h

/-- A character of a bare name is no mark and no blank. -/
lemma not_isBare : ['"', '\'', ' ', '\t', '\n', '\r', '.', '=', '[', ']', '#', '\ufeff'].all
    (fun c => !isBare c) = true := by decide

/-- The first character of a bare name. -/
lemma head_name {name : String} (h : IsName name) :
    ∃ c t, name.toList = c :: t ∧
      c ∉ ['"', '\'', ' ', '\t', '\n', '\r', '.', '=', '[', ']', '#', '\ufeff'] := by
  cases hname : name.toList with
  | nil => exact absurd hname h.1
  | cons c t =>
    refine ⟨c, t, rfl, ?_⟩
    intro hc
    have hbare := h.2 c (by rw [hname]; simp)
    simpa [hbare] using List.all_eq_true.mp not_isBare c hc

/-- A bare name stands where blanks end. -/
lemma skipBlanks_name {name : String} (h : IsName name) (s : List Char) :
    skipBlanks (name.toList ++ s) = name.toList ++ s := by
  obtain ⟨c, t, ht, hc⟩ := head_name h
  simp only [List.mem_cons, not_or] at hc
  rw [ht, skipBlanks, List.cons_append, List.dropWhile_cons_of_neg]
  simp [hc]

/-- A bare name is read up to a character that is not bare. -/
lemma name_append {name : String} (h : IsName name) {c : Char} (hc : isBare c = false)
    (s : List Char) : Toml.name (name.toList ++ c :: s) = some (name, c :: s) := by
  have htake : (name.toList ++ c :: s).takeWhile isBare = name.toList := by
    rw [List.takeWhile_append_of_pos h.2, List.takeWhile_cons_of_neg (by simp [hc]),
      List.append_nil]
  have hdrop : (name.toList ++ c :: s).dropWhile isBare = c :: s := by
    rw [List.dropWhile_append_of_pos h.2, List.dropWhile_cons_of_neg (by simp [hc])]
  obtain ⟨d, t, ht, hd⟩ := head_name h
  simp only [List.mem_cons, not_or] at hd
  unfold Toml.name
  split
  · rename_i heq
    rw [ht] at heq
    exact absurd (List.cons.inj heq).1 hd.1
  · rename_i heq
    rw [ht] at heq
    exact absurd (List.cons.inj heq).1 hd.2.1
  · rw [htake, hdrop]
    split
    · rename_i heq
      exact absurd heq h.1
    · rw [String.ofList_toList]

/-- A key of one bare name. -/
lemma key_append {name : String} (h : IsName name) {c d : Char} {s t : List Char}
    (hc : isBare c = false) (hskip : skipBlanks (c :: s) = d :: t) (hd : d ≠ '.') :
    key (name.toList ++ c :: s) = some ([], name, d :: t) := by
  have hnames : ∀ fuel, names (fuel + 1) (name.toList ++ c :: s) = some ([name], d :: t) := by
    intro fuel
    rw [names, skipBlanks_name h, name_append h hc]
    simp only [Option.bind_eq_bind, Option.bind_some]
    rw [hskip]
    split
    · rename_i heq
      exact absurd (List.cons.inj heq).1 hd
    · rfl
  rw [key, hnames]
  rfl

/-! ### Lines -/

/-- A text read in a state gives a tree. -/
def Parses (st : State) (s : List Char) (t : Tree) : Prop :=
  ∀ fuel, s.length < fuel → lines fuel st s = some t

/-- The end of a text. -/
lemma Parses.nil (st : State) : Parses st [] st.tree := by
  intro fuel hfuel
  obtain ⟨n, rfl⟩ : ∃ n, fuel = n + 1 := ⟨fuel - 1, by omega⟩
  rfl

/-- An empty line. -/
lemma Parses.empty {st : State} {s : List Char} {t : Tree} (h : Parses st s t) :
    Parses st ('\n' :: s) t := by
  intro fuel hfuel
  rw [List.length_cons] at hfuel
  obtain ⟨n, rfl⟩ : ∃ n, fuel = n + 1 := ⟨fuel - 1, by omega⟩
  exact h n (by omega)

/-- An assignment. -/
lemma Parses.assignment {tree tree' : Tree} {current : List String} {name text : String}
    {d : Document} {s : List Char} {t : Tree} (hname : IsName name) (htext : ReadsAs text d)
    (htree : tree.at? false (Tree.assign? [] name d) current = some tree')
    (h : Parses ⟨tree', current⟩ s t) :
    Parses ⟨tree, current⟩ (name.toList ++ ' ' :: '=' :: ' ' :: (text.toList ++ '\n' :: s)) t := by
  intro fuel hfuel
  obtain ⟨n, rfl⟩ : ∃ n, fuel = n + 1 := ⟨fuel - 1, by omega⟩
  simp only [List.length_append, List.length_cons] at hfuel
  have hline : Toml.assignment ⟨tree, current⟩
      (name.toList ++ ' ' :: '=' :: ' ' :: (text.toList ++ '\n' :: s)) =
        some (⟨tree', current⟩, s) := by
    have hskip : skipBlanks (' ' :: (text.toList ++ '\n' :: s)) = text.toList ++ '\n' :: s :=
      htext.1 ('\n' :: s)
    have hend : lineEnd ('\n' :: s) = some s := rfl
    rw [Toml.assignment, key_append hname (by decide) rfl (by decide)]
    simp only [Option.bind_eq_bind, Option.bind_some]
    rw [hskip, htext.2]
    simp only [Option.bind_some, hend, htree]
  obtain ⟨c, u, hu, hc⟩ := head_name hname
  simp only [List.mem_cons, not_or] at hc
  have hhead : ∀ v, name.toList ++ v = c :: (u ++ v) := fun v => by rw [hu, List.cons_append]
  have hbreak : ∀ v, lineBreak? (name.toList ++ v) = none := by
    intro v
    rw [hhead, lineBreak?]
    · simp [hc]
    · simp [hc]
  rw [lines, skipBlanks_name hname]
  split
  · rename_i heq
    rw [hhead] at heq
    cases heq
  · rename_i heq
    rw [hhead] at heq
    exact absurd (List.cons.inj heq).1 (by simp [hc])
  · rename_i heq
    rw [hhead] at heq
    exact absurd (List.cons.inj heq).1 (by simp [hc])
  · rw [hbreak, hline]
    exact h n (by omega)

/-- The header of a table at the top. -/
lemma Parses.table {tree tree' : Tree} {current : List String} {name : String} {s : List Char}
    {t : Tree} (hname : IsName name) (htree : Tree.open? name tree = some tree')
    (h : Parses ⟨tree', [name]⟩ s t) :
    Parses ⟨tree, current⟩ ('[' :: (name.toList ++ ']' :: '\n' :: s)) t := by
  intro fuel hfuel
  obtain ⟨n, rfl⟩ : ∃ n, fuel = n + 1 := ⟨fuel - 1, by omega⟩
  simp only [List.length_append, List.length_cons] at hfuel
  obtain ⟨c, u, hu, hc⟩ := head_name hname
  simp only [List.mem_cons, not_or] at hc
  have hline : header ⟨tree, current⟩ (name.toList ++ ']' :: '\n' :: s) =
      some (⟨tree', [name]⟩, s) := by
    have hafter : after? [']'] (']' :: '\n' :: s) = some ('\n' :: s) := rfl
    have hend : lineEnd ('\n' :: s) = some s := rfl
    rw [header]
    · rw [key_append hname (by decide) rfl (by decide)]
      simp only [Option.bind_eq_bind, Option.bind_some, hafter, hend, Tree.at?, htree]
      rfl
    · intro rest heq
      rw [hu, List.cons_append] at heq
      exact absurd (List.cons.inj heq).1 (by simp [hc])
  have hskip : skipBlanks ('[' :: (name.toList ++ ']' :: '\n' :: s)) =
      '[' :: (name.toList ++ ']' :: '\n' :: s) := rfl
  rw [lines, hskip]
  simp only [hline, Option.bind_eq_bind, Option.bind_some]
  exact h n (by omega)

/-- The header of a list of tables at the top. -/
lemma Parses.listed {tree tree' : Tree} {current : List String} {name : String} {s : List Char}
    {t : Tree} (hname : IsName name) (htree : Tree.append? name tree = some tree')
    (h : Parses ⟨tree', [name]⟩ s t) :
    Parses ⟨tree, current⟩ ('[' :: '[' :: (name.toList ++ ']' :: ']' :: '\n' :: s)) t := by
  intro fuel hfuel
  obtain ⟨n, rfl⟩ : ∃ n, fuel = n + 1 := ⟨fuel - 1, by omega⟩
  simp only [List.length_append, List.length_cons] at hfuel
  have hline : header ⟨tree, current⟩ ('[' :: (name.toList ++ ']' :: ']' :: '\n' :: s)) =
      some (⟨tree', [name]⟩, s) := by
    have hafter : after? [']', ']'] (']' :: ']' :: '\n' :: s) = some ('\n' :: s) := rfl
    have hend : lineEnd ('\n' :: s) = some s := rfl
    rw [header, key_append hname (by decide) rfl (by decide)]
    simp only [Option.bind_eq_bind, Option.bind_some, hafter, hend, Tree.at?, htree]
    rfl
  have hskip : skipBlanks ('[' :: '[' :: (name.toList ++ ']' :: ']' :: '\n' :: s)) =
      '[' :: '[' :: (name.toList ++ ']' :: ']' :: '\n' :: s) := rfl
  rw [lines, hskip]
  simp only [hline, Option.bind_eq_bind, Option.bind_some]
  exact h n (by omega)

end Daq.Toml

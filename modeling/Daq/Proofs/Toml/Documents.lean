import Mathlib.Data.List.Nodup
import Daq.Proofs.Toml.Lines

set_option autoImplicit false

/-!
# Reading TOML documents that were written

A record is written as its plain members, then one section for each member that is a record or a
list of records. The reader grows the tree in the same order: an assignment appends a value to the
table that was opened last, a header appends a table, or a table to a list of tables. So the tree at
the end has the members of the record, the plain ones first and null ones left out.

Only records of this shape are considered, whose sections have no sections of their own.

## Main definitions

* `Daq.Toml.IsTable`, `Daq.Toml.IsSection`, `Daq.Toml.IsTop` — the shape of the records.
* `Daq.Toml.storedTop` — what a record is read back as.
* `Daq.Toml.Reaches` — where the table stands that assignments go to.
* `Daq.Toml.Adds` — a text that grows the tree.

## Main results

* `Daq.Toml.parses_lines` — the plain members of a record are read back.
* `Daq.Toml.adds_section` — a section is read back.
* `Daq.Toml.read_render` — a record is read back.
-/

namespace Daq.Toml

/-! ### Members of a tree -/

namespace Tree

variable {name : String} {top : List (String × Tree)}

/-- A name that does not occur is looked up in the rest. -/
lemma find?_append (h : name ∉ top.map Prod.fst) (rest : List (String × Tree)) :
    find? name (top ++ rest) = find? name rest := by
  induction top with
  | nil => rfl
  | cons m top ih =>
    simp only [List.map_cons, List.mem_cons, not_or] at h
    rw [List.cons_append, find?, if_neg (Ne.symm h.1), ih h.2]

/-- A name that does not occur is put into the rest. -/
lemma put_append (h : name ∉ top.map Prod.fst) (t : Tree) (rest : List (String × Tree)) :
    put name t (top ++ rest) = top ++ put name t rest := by
  induction top with
  | nil => rfl
  | cons m top ih =>
    simp only [List.map_cons, List.mem_cons, not_or] at h
    rw [List.cons_append, put, if_neg (Ne.symm h.1), ih h.2, List.cons_append]

/-- The member at the end is found. -/
lemma find?_last (h : name ∉ top.map Prod.fst) (t : Tree) :
    find? name (top ++ [(name, t)]) = some t := by
  rw [find?_append h, find?, if_pos rfl]

/-- The member at the end is replaced. -/
lemma put_last (h : name ∉ top.map Prod.fst) (t u : Tree) :
    put name u (top ++ [(name, t)]) = top ++ [(name, u)] := by
  rw [put_append h, put, if_pos rfl]

/-- A name that does not occur is not found. -/
lemma find?_new (h : name ∉ top.map Prod.fst) : find? name top = none := by
  rw [← List.append_nil top, find?_append h, find?]

/-- A name that does not occur is put at the end. -/
lemma put_new (h : name ∉ top.map Prod.fst) (t : Tree) : put name t top = top ++ [(name, t)] := by
  rw [← List.append_nil top, put_append h, put, List.append_nil]

/-- The last table of a list is changed. -/
lemma onLast?_append (f : Tree → Option Tree) (items : List Tree) (t : Tree) :
    onLast? f (items ++ [t]) = (f t).map fun u => items ++ [u] := by
  induction items with
  | nil => rfl
  | cons u items ih =>
    obtain ⟨v, rest, hrest⟩ : ∃ v rest, items ++ [t] = v :: rest :=
      List.exists_cons_of_ne_nil (by simp)
    have hcons : onLast? f (u :: v :: rest) = (onLast? f (v :: rest)).map (u :: ·) := rfl
    rw [List.cons_append, hrest, hcons, ← hrest, ih]
    cases f t <;> rfl

/-- The finished members of a table. -/
lemma toMembers_eq (ms : List (String × Tree)) :
    toMembers ms = ms.map fun m => (m.1, m.2.toDocument) := by
  induction ms with
  | nil => rfl
  | cons m ms ih => rw [toMembers, ih, List.map_cons]

/-- The finished members of two parts of a table. -/
lemma toMembers_append (ms ns : List (String × Tree)) :
    toMembers (ms ++ ns) = toMembers ms ++ toMembers ns := by
  simp only [toMembers_eq, List.map_append]

/-- The finished tables of a list. -/
lemma toItems_eq (items : List Tree) : toItems items = items.map toDocument := by
  induction items with
  | nil => rfl
  | cons t items ih => rw [toItems, ih, List.map_cons]

end Tree

/-! ### Tables that assignments go to -/

/-- Where the table stands that assignments go to: what is changed at `path` are the members that
`build` puts in their place. -/
def Reaches (path : List String) (build : List (String × Tree) → Tree) : Prop :=
  ∀ f ms ms', f (.table false false ms) = some (.table false false ms') →
    (build ms).at? false f path = some (build ms')

variable {name : String} {top : List (String × Tree)}

/-- Assignments go to the top at first. -/
lemma reaches_top : Reaches [] (.table false false) := fun _ _ _ h => h

/-- Assignments go to a table that was opened. -/
lemma reaches_table (h : name ∉ top.map Prod.fst) :
    Reaches [name] fun ms => .table false false (top ++ [(name, .table false false ms)]) := by
  intro f ms ms' hf
  rw [Tree.at?, Tree.find?_last h]
  simp only [Option.getD_some, Bool.false_and, Bool.false_eq_true, if_false, Tree.at?, hf,
    Option.bind_eq_bind, Option.bind_some, Tree.put_last h]

/-- Assignments go to the last table of a list that was opened. -/
lemma reaches_listed (h : name ∉ top.map Prod.fst) (items : List Tree) :
    Reaches [name] fun ms =>
      .table false false (top ++ [(name, .tables (items ++ [.table false false ms]))]) := by
  intro f ms ms' hf
  rw [Tree.at?, Tree.find?_last h]
  simp only [Option.getD_some, Tree.onLast?_append, Tree.at?, hf, Option.map_some,
    Option.bind_eq_bind, Option.bind_some, Tree.put_last h]

/-- An assignment appends a value. -/
lemma Reaches.assign {path : List String} {build : List (String × Tree) → Tree}
    (hreach : Reaches path build) {ms : List (String × Tree)} (h : name ∉ ms.map Prod.fst)
    (d : Document) :
    (build ms).at? false (Tree.assign? [] name d) path =
      some (build (ms ++ [(name, .value d)])) := by
  apply hreach
  have hassign : Tree.assign? [] name d (.table false false ms) =
      Tree.define? false name d (.table false false ms) := rfl
  rw [hassign, Tree.define?, Tree.find?_new h, Tree.put_new h]
  rfl

/-! ### Plain members -/

/-- The values that assignments append. -/
def leaves (ms : List (String × Document)) : List (String × Tree) :=
  ms.map fun m => (m.1, .value (stored m.2))

/-- The text of an assignment. -/
lemma toList_assignment (h : IsName name) (text : String) (s : List Char) :
    (renderName name ++ " = " ++ text ++ "\n").toList ++ s =
      name.toList ++ ' ' :: '=' :: ' ' :: (text.toList ++ '\n' :: s) := by
  rw [renderName_eq h]
  simp

/-- Values with bare names are written as assignments and read back. -/
lemma parses_pairs {plain : List (String × Document)}
    (hplain : ∀ m ∈ plain, IsName m.1 ∧ IsValue m.2) :
    ∃ pairs, renderPairs plain = some pairs ∧
      ∀ path build, Reaches path build → ∀ before s t,
        (before.map Prod.fst ++ plain.map Prod.fst).Nodup →
        Parses ⟨build (before ++ leaves plain), path⟩ s t →
        Parses ⟨build before, path⟩
          ((String.join (pairs.map fun p => p ++ "\n")).toList ++ s) t := by
  -- The text is read from its end: once the rest is read into a table that has the first member, the
  -- line of the first member is read into the table as it was before.
  induction plain with
  | nil =>
    refine ⟨[], by rw [renderPairs], ?_⟩
    intro path build _ before s t _ h
    simpa [leaves, String.join] using h
  | cons m plain ih =>
    obtain ⟨name, d⟩ := m
    obtain ⟨hname, hd⟩ := hplain (name, d) (by simp)
    obtain ⟨text, htext, hread⟩ := value_renderValue hd
    obtain ⟨pairs, hpairs, hih⟩ := ih fun m hm => hplain m (by simp [hm])
    refine ⟨(renderName name ++ " = " ++ text) :: pairs, ?_, ?_⟩
    · rw [renderPairs, htext, hpairs]
      rfl
    · intro path build hreach before s t hnodup h
      have hnew : name ∉ before.map Prod.fst := by
        intro hmem
        exact (List.nodup_append.mp hnodup).2.2 name hmem name (by simp) rfl
      have hrest := hih path build hreach (before ++ [(name, .value (stored d))]) s t
        (by simpa using hnodup) (by simpa [leaves] using h)
      have hline := Parses.assignment hname hread (hreach.assign hnew (stored d)) hrest
      rw [← toList_assignment hname text] at hline
      simpa [String.join_cons] using hline

/-- Whether a member of a record is written as an assignment. -/
lemma mem_plainMembers {ms : List (String × Document)} {m : String × Document} :
    m ∈ plainMembers ms ↔ m ∈ ms ∧ m.2 ≠ .null ∧ isSection m.2 = false := by
  obtain ⟨name, d⟩ := m
  rw [plainMembers, List.mem_filter]
  cases d <;> simp [isSection]

/-- **The plain members of a record are read back.** -/
theorem parses_lines {ms : List (String × Document)} (hdistinct : (ms.map Prod.fst).Nodup)
    (hplain : ∀ m ∈ plainMembers ms, IsName m.1 ∧ IsValue m.2) :
    ∃ text, renderLines ms = some text ∧
      ∀ path build, Reaches path build → ∀ s t,
        Parses ⟨build (leaves (plainMembers ms)), path⟩ s t →
        Parses ⟨build [], path⟩ (text.toList ++ s) t := by
  obtain ⟨pairs, hpairs, hread⟩ := parses_pairs hplain
  refine ⟨String.join (pairs.map fun p => p ++ "\n"), ?_, ?_⟩
  · rw [renderLines, hpairs]
    rfl
  · intro path build hreach s t h
    have hsub : ((plainMembers ms).map Prod.fst).Nodup :=
      hdistinct.sublist (List.filter_sublist.map Prod.fst)
    exact hread path build hreach [] s t (by simpa using hsub) (by simpa using h)

/-! ### Sections -/

/-- Whether members can be written, with values of some kind. -/
structure HasMembers (P : Document → Prop) (ms : List (String × Document)) : Prop where
  /-- The names are written without quotes. -/
  bare : ∀ m ∈ ms, IsName m.1
  /-- No name occurs twice. -/
  distinct : (ms.map Prod.fst).Nodup
  /-- Every value is of this kind. -/
  values : ∀ m ∈ ms, P m.2

/-- Whether the members of a record make a table without sections of its own: every value is null or
fits on a line. -/
def IsTable : List (String × Document) → Prop := HasMembers fun d => d = .null ∨ IsValue d

/-- Whether a value is a section without sections of its own. -/
def IsSection : Document → Prop
  | .record ms => IsTable ms
  | .list items => items ≠ [] ∧ ∀ d ∈ items, ∃ ms, d = .record ms ∧ IsTable ms
  | _ => False

/-- Whether the members of a record make a whole text: every value is null, fits on a line or is such
a section. -/
def IsTop : List (String × Document) → Prop :=
  HasMembers fun d => d = .null ∨ IsValue d ∨ IsSection d

/-- A value on a line is no section. -/
lemma IsValue.isSection {d : Document} (h : IsValue d) : isSection d = false := by
  cases d with
  | record ms => exact h.elim
  | list items =>
    cases items with
    | nil => rfl
    | cons d items => exact h.elim
  | _ => rfl

/-- A section gets a section of its own. -/
lemma IsSection.isSection {d : Document} (h : IsSection d) : isSection d = true := by
  cases d with
  | record ms => rfl
  | list items =>
    cases items with
    | nil => exact absurd rfl h.1
    | cons d items =>
      obtain ⟨ms, rfl, -⟩ := h.2 d (by simp)
      rfl
  | _ => exact h.elim

/-- The values of a table are no sections. -/
lemma IsTable.isSection {ms : List (String × Document)} (h : IsTable ms) {m : String × Document}
    (hm : m ∈ ms) : Toml.isSection m.2 = false := by
  rcases h.values m hm with hnull | hvalue
  · rw [hnull]
    rfl
  · exact hvalue.isSection

/-- A value without a section has none. -/
lemma renderSection_eq (path : List String) {d : Document} (h : isSection d = false) :
    renderSection path d = some "" := by
  cases d with
  | record ms => cases h
  | list items =>
    cases items with
    | nil => rw [renderSection] <;> simp
    | cons d items =>
      cases d with
      | record ms => cases h
      | _ => rw [renderSection] <;> simp
  | _ => rw [renderSection] <;> simp

/-- A table has no sections. -/
lemma IsTable.renderSections {ms : List (String × Document)} (h : IsTable ms)
    (path : List String) : Toml.renderSections path ms = some "" := by
  have hall : ∀ m ∈ ms, Toml.isSection m.2 = false := fun m hm => h.isSection hm
  clear h
  induction ms with
  | nil => rw [Toml.renderSections]
  | cons m ms ih =>
    rw [Toml.renderSections, renderSection_eq _ (hall m (by simp)),
      ih fun n hn => hall n (by simp [hn])]
    rfl

/-- The assignments of a table. -/
lemma IsTable.parses_lines {ms : List (String × Document)} (h : IsTable ms) :
    ∃ text, renderLines ms = some text ∧
      ∀ path build, Reaches path build → ∀ s t,
        Parses ⟨build (leaves (plainMembers ms)), path⟩ s t →
        Parses ⟨build [], path⟩ (text.toList ++ s) t := by
  apply Toml.parses_lines h.distinct
  intro m hm
  obtain ⟨hmem, hnull, -⟩ := mem_plainMembers.mp hm
  exact ⟨h.bare m hmem, (h.values m hmem).resolve_left hnull⟩

/-- A text grows the tree, whichever table was opened last. -/
def Adds (text : String) (before after : List (String × Tree)) : Prop :=
  ∀ current s t, (∀ current, Parses ⟨.table false false after, current⟩ s t) →
    Parses ⟨.table false false before, current⟩ (text.toList ++ s) t

/-- Texts grow the tree one after the other. -/
lemma Adds.trans {text text' : String} {a b c : List (String × Tree)} (h : Adds text a b)
    (h' : Adds text' b c) : Adds (text ++ text') a c := by
  intro current s t ht
  rw [String.toList_append, List.append_assoc]
  exact h current _ t fun current => h' current s t ht

/-- An empty text grows nothing. -/
lemma Adds.refl (a : List (String × Tree)) : Adds "" a a := fun current _ _ ht => ht current

/-- The finished table of a record. -/
def tableOf : Document → Tree
  | .record ms => .table false false (leaves (plainMembers ms))
  | d => .value (stored d)

/-- The finished section of a value. -/
def sectionOf : Document → Tree
  | .list items => .tables (items.map tableOf)
  | d => tableOf d

/-- A table is read back. -/
lemma adds_table (hname : IsName name) {ms : List (String × Document)} (h : IsTable ms) :
    ∃ text, renderSection [name] (.record ms) = some text ∧
      ∀ top, name ∉ top.map Prod.fst → Adds text top (top ++ [(name, tableOf (.record ms))]) := by
  obtain ⟨body, hbody, hread⟩ := h.parses_lines
  refine ⟨"\n[" ++ renderPath [name] ++ "]\n" ++ body ++ "", ?_, ?_⟩
  · rw [renderSection, hbody, h.renderSections]
    rfl
  · intro top hnew current s t ht
    have hopen : Tree.open? name (.table false false top) =
        some (.table false false (top ++ [(name, .table false false [])])) := by
      rw [Tree.open?, Tree.find?_new hnew, Tree.put_new hnew]
    have hlines := hread [name] _ (reaches_table hnew) s t (ht [name])
    have hheader : Parses ⟨.table false false top, current⟩ _ t :=
      (Parses.table hname hopen hlines).empty
    simpa [renderPath, renderName_eq hname] using hheader

/-- A table of a list is read back. -/
lemma adds_item (hname : IsName name) {ms : List (String × Document)} (h : IsTable ms) :
    ∃ body, renderLines ms = some body ∧
      ∀ before top items, name ∉ top.map Prod.fst →
        Tree.append? name (.table false false before) =
          some (.table false false
            (top ++ [(name, .tables (items ++ [.table false false []]))])) →
        Adds ("\n[[" ++ renderPath [name] ++ "]]\n" ++ body ++ "") before
          (top ++ [(name, .tables (items ++ [tableOf (.record ms)]))]) := by
  obtain ⟨body, hbody, hread⟩ := h.parses_lines
  refine ⟨body, hbody, ?_⟩
  intro before top items hnew happend current s t ht
  have hlines := hread [name] _ (reaches_listed hnew items) s t (ht [name])
  have hheader : Parses ⟨.table false false before, current⟩ _ t :=
    (Parses.listed hname happend hlines).empty
  simpa [renderPath, renderName_eq hname] using hheader

/-- A header appends a table to the list at the end. -/
lemma append?_last (h : name ∉ top.map Prod.fst) (items : List Tree) :
    Tree.append? name (.table false false (top ++ [(name, .tables items)])) =
      some (.table false false (top ++ [(name, .tables (items ++ [.table false false []]))])) := by
  rw [Tree.append?, Tree.find?_last h]
  simp only [Option.getD_some, Tree.put_last h]

/-- A header appends a list with one table. -/
lemma append?_new (h : name ∉ top.map Prod.fst) :
    Tree.append? name (.table false false top) =
      some (.table false false (top ++ [(name, .tables ([] ++ [.table false false []]))])) := by
  rw [Tree.append?, Tree.find?_new h]
  simp only [Option.getD_none, Tree.put_new h]

/-- Further tables of a list are read back. -/
lemma adds_tables (hname : IsName name) {ds : List Document}
    (h : ∀ d ∈ ds, ∃ ms, d = .record ms ∧ IsTable ms) :
    ∃ text, renderTables [name] ds = some text ∧
      ∀ top items, name ∉ top.map Prod.fst →
        Adds text (top ++ [(name, .tables items)])
          (top ++ [(name, .tables (items ++ ds.map tableOf))]) := by
  induction ds with
  | nil =>
    refine ⟨"", by rw [renderTables], ?_⟩
    intro top items _
    simpa using Adds.refl (top ++ [(name, .tables items)])
  | cons d ds ih =>
    obtain ⟨ms, rfl, hms⟩ := h d (by simp)
    obtain ⟨body, hbody, hitem⟩ := adds_item hname hms
    obtain ⟨text, htext, hrest⟩ := ih fun e he => h e (by simp [he])
    refine ⟨"\n[[" ++ renderPath [name] ++ "]]\n" ++ body ++ "" ++ text, ?_, ?_⟩
    · rw [renderTables, hbody, hms.renderSections, htext]
      rfl
    · intro top items hnew
      have hadd := (hitem _ top items hnew (append?_last hnew items)).trans (hrest top _ hnew)
      simpa using hadd

/-- **A section is read back.** -/
theorem adds_section (hname : IsName name) {d : Document} (h : IsSection d) :
    ∃ text, renderSection [name] d = some text ∧
      ∀ top, name ∉ top.map Prod.fst → Adds text top (top ++ [(name, sectionOf d)]) := by
  cases d with
  | record ms => exact adds_table hname h
  | list items =>
    cases items with
    | nil => exact absurd rfl h.1
    | cons d ds =>
      obtain ⟨ms, rfl, hms⟩ := h.2 d (by simp)
      obtain ⟨body, hbody, hitem⟩ := adds_item hname hms
      obtain ⟨text, htext, hrest⟩ := adds_tables hname fun e (he : e ∈ ds) =>
        h.2 e (by simp [he])
      refine ⟨"\n[[" ++ renderPath [name] ++ "]]\n" ++ body ++ "" ++ text, ?_, ?_⟩
      · rw [renderSection, hbody, hms.renderSections, htext]
        rfl
      · intro top hnew
        have hadd := (hitem _ top [] hnew (append?_new hnew)).trans (hrest top _ hnew)
        simpa [sectionOf] using hadd
  | _ => exact h.elim

/-! ### Documents -/

/-- What the plain members of a record are read back as. -/
def storedPlain (ms : List (String × Document)) : List (String × Document) :=
  (plainMembers ms).map fun m => (m.1, stored m.2)

/-- What a table is read back as. -/
def storedTable : Document → Document
  | .record ms => .record (storedPlain ms)
  | d => stored d

/-- What a section is read back as. -/
def storedSection : Document → Document
  | .list items => .list (items.map storedTable)
  | d => storedTable d

/-- What the members of a record are read back as: plain ones first, then sections. -/
def storedTop (ms : List (String × Document)) : List (String × Document) :=
  storedPlain ms ++ (ms.filter fun m => isSection m.2).map fun m => (m.1, storedSection m.2)

/-- The finished plain members. -/
lemma toMembers_leaves (ms : List (String × Document)) :
    Tree.toMembers (leaves ms) = ms.map fun m => (m.1, stored m.2) := by
  rw [Tree.toMembers_eq, leaves, List.map_map]
  rfl

/-- The finished document of a table. -/
lemma toDocument_tableOf (d : Document) : (tableOf d).toDocument = storedTable d := by
  cases d with
  | record ms => rw [tableOf, Tree.toDocument, toMembers_leaves, storedTable, storedPlain]
  | _ => rfl

/-- The finished document of a section. -/
lemma toDocument_sectionOf (d : Document) : (sectionOf d).toDocument = storedSection d := by
  cases d with
  | list items =>
    rw [sectionOf, Tree.toDocument, Tree.toItems_eq, List.map_map, storedSection]
    exact congrArg Document.list (List.map_congr_left fun e _ => toDocument_tableOf e)
  | record ms => exact toDocument_tableOf (.record ms)
  | _ => rfl

/-- The finished sections of a record. -/
def branches (ms : List (String × Document)) : List (String × Tree) :=
  (ms.filter fun m => isSection m.2).map fun m => (m.1, sectionOf m.2)

/-- The finished document of the sections. -/
lemma toMembers_branches (ms : List (String × Document)) :
    Tree.toMembers (branches ms) =
      (ms.filter fun m => isSection m.2).map fun m => (m.1, storedSection m.2) := by
  rw [Tree.toMembers_eq, branches, List.map_map]
  exact List.map_congr_left fun m _ => congrArg (Prod.mk m.1) (toDocument_sectionOf m.2)

/-- The sections of a record are read back. -/
lemma adds_sections {ms : List (String × Document)} (hbare : ∀ m ∈ ms, IsName m.1)
    (hvalues : ∀ m ∈ ms, m.2 = .null ∨ IsValue m.2 ∨ IsSection m.2) :
    ∃ text, renderSections [] ms = some text ∧
      ∀ top, (top.map Prod.fst ++ (branches ms).map Prod.fst).Nodup →
        Adds text top (top ++ branches ms) := by
  induction ms with
  | nil =>
    refine ⟨"", by rw [renderSections], ?_⟩
    intro top _
    simpa [branches] using Adds.refl top
  | cons m ms ih =>
    obtain ⟨name, d⟩ := m
    obtain ⟨text, htext, hrest⟩ :=
      ih (fun m hm => hbare m (by simp [hm])) fun m hm => hvalues m (by simp [hm])
    by_cases hsection : isSection d = true
    · have hd : IsSection d := by
        rcases hvalues (name, d) (by simp) with hnull | hvalue | hd
        · dsimp only at hnull
          rw [hnull] at hsection
          cases hsection
        · rw [hvalue.isSection] at hsection
          cases hsection
        · exact hd
      obtain ⟨first, hfirst, hadd⟩ := adds_section (hbare (name, d) (by simp)) hd
      have hbranches : branches ((name, d) :: ms) = (name, sectionOf d) :: branches ms := by
        simp [branches, hsection]
      refine ⟨first ++ text, ?_, ?_⟩
      · rw [renderSections, List.nil_append, hfirst, htext]
        rfl
      · intro top hnodup
        rw [hbranches] at hnodup ⊢
        have hnew : name ∉ top.map Prod.fst := by
          intro hmem
          exact (List.nodup_append.mp hnodup).2.2 name hmem name (by simp) rfl
        have hadds := (hadd top hnew).trans
          (hrest (top ++ [(name, sectionOf d)]) (by simpa using hnodup))
        simpa using hadds
    · rw [Bool.not_eq_true] at hsection
      have hbranches : branches ((name, d) :: ms) = branches ms := by
        simp [branches, hsection]
      refine ⟨"" ++ text, ?_, ?_⟩
      · rw [renderSections, renderSection_eq _ hsection, htext]
        rfl
      · intro top hnodup
        rw [hbranches] at hnodup ⊢
        simpa using hrest top hnodup

/-- No document starts with a byte order mark. -/
lemma not_parses_mark (st : State) (s : List Char) (t : Tree) : ¬ Parses st ('\ufeff' :: s) t := by
  intro h
  have hnone : ∀ n, lines (n + 1) st ('\ufeff' :: s) = none := fun _ => rfl
  have hsome := h (s.length + 2) (by simp)
  rw [hnone] at hsome
  cases hsome

/-- A text that is read has no byte order mark. -/
lemma skipMark_eq {st : State} {s : List Char} {t : Tree} (h : Parses st s t) :
    skipMark s = s := by
  cases s with
  | nil => rfl
  | cons c s =>
    rw [skipMark, if_neg]
    intro hc
    have hmark : c = '\ufeff' := Char.toNat_inj.mp hc
    rw [hmark] at h
    exact not_parses_mark st s t h

/-- The names of the plain members and of the sections of a record are distinct. -/
lemma IsTop.nodup {ms : List (String × Document)} (h : IsTop ms) :
    ((leaves (plainMembers ms)).map Prod.fst ++ (branches ms).map Prod.fst).Nodup := by
  have hleaves : (leaves (plainMembers ms)).map Prod.fst = (plainMembers ms).map Prod.fst := by
    rw [leaves, List.map_map]
    rfl
  have hbranches : (branches ms).map Prod.fst =
      (ms.filter fun m => isSection m.2).map Prod.fst := by
    rw [branches, List.map_map]
    rfl
  rw [hleaves, hbranches, List.nodup_append]
  refine ⟨h.distinct.sublist (List.filter_sublist.map _),
    h.distinct.sublist (List.filter_sublist.map _), ?_⟩
  intro a ha b hb hab
  obtain ⟨m, hm, rfl⟩ := List.mem_map.mp ha
  obtain ⟨n, hn, rfl⟩ := List.mem_map.mp hb
  obtain ⟨hmem, -, hplain⟩ := mem_plainMembers.mp hm
  obtain ⟨hnmem, hsection⟩ := List.mem_filter.mp hn
  have hmn : m = n := List.inj_on_of_nodup_map h.distinct hmem hnmem hab
  rw [hmn] at hplain
  rw [hplain] at hsection
  cases hsection

/-- A record without sections has plain members only. -/
lemma IsTable.storedTop {ms : List (String × Document)} (h : IsTable ms) :
    Toml.storedTop ms = storedPlain ms := by
  have hsections : (ms.filter fun m => Toml.isSection m.2) = [] := by
    rw [List.filter_eq_nil_iff]
    intro m hm
    simp [h.isSection hm]
  rw [Toml.storedTop, hsections, List.map_nil, List.append_nil]

/-- The names of what is read back are distinct. -/
lemma IsTop.nodup_storedTop {ms : List (String × Document)} (h : IsTop ms) :
    ((Toml.storedTop ms).map Prod.fst).Nodup := by
  have hnames : (Toml.storedTop ms).map Prod.fst =
      (leaves (plainMembers ms)).map Prod.fst ++ (branches ms).map Prod.fst := by
    simp only [Toml.storedTop, storedPlain, leaves, branches, List.map_append, List.map_map]
    rfl
  rw [hnames]
  exact h.nodup

/-- A value on a line is read back as such. -/
lemma IsValue.storedSection {d : Document} (h : IsValue d) :
    Toml.storedSection d = stored d := by
  cases d with
  | record ms => exact h.elim
  | list items =>
    cases items with
    | nil => rfl
    | cons d items => exact h.elim
  | _ => rfl

/-- What is read back are the members that are not null, in another order. -/
lemma IsTop.mem_storedTop {ms : List (String × Document)} (h : IsTop ms) (name : String)
    (x : Document) :
    (name, x) ∈ Toml.storedTop ms ↔
      ∃ d, (name, d) ∈ ms ∧ d ≠ .null ∧ Toml.storedSection d = x := by
  rw [Toml.storedTop, List.mem_append, storedPlain, List.mem_map, List.mem_map]
  constructor
  · rintro (⟨m, hm, heq⟩ | ⟨m, hm, heq⟩)
    · obtain ⟨hmem, hnull, hsection⟩ := mem_plainMembers.mp hm
      obtain ⟨rfl, rfl⟩ := Prod.mk.inj heq
      refine ⟨m.2, hmem, hnull, ?_⟩
      rcases h.values m hmem with hd | hd | hd
      · exact absurd hd hnull
      · exact hd.storedSection
      · rw [hd.isSection] at hsection
        cases hsection
    · obtain ⟨hmem, hsection⟩ := List.mem_filter.mp hm
      obtain ⟨rfl, rfl⟩ := Prod.mk.inj heq
      refine ⟨m.2, hmem, ?_, rfl⟩
      intro hnull
      rw [hnull] at hsection
      cases hsection
  · rintro ⟨d, hd, hnull, rfl⟩
    rcases h.values (name, d) hd with hd' | hd' | hd'
    · exact absurd hd' hnull
    · exact .inl ⟨(name, d), mem_plainMembers.mpr ⟨hd, hnull, hd'.isSection⟩,
        by rw [hd'.storedSection]⟩
    · exact .inr ⟨(name, d), List.mem_filter.mpr ⟨hd, hd'.isSection⟩, rfl⟩

/-- **A record is read back.** -/
theorem read_render {ms : List (String × Document)} (h : IsTop ms) :
    ∃ text, render (.record ms) = some text ∧ read text = some (.record (storedTop ms)) := by
  have hplain : ∀ m ∈ plainMembers ms, IsName m.1 ∧ IsValue m.2 := by
    intro m hm
    obtain ⟨hmem, hnull, hsection⟩ := mem_plainMembers.mp hm
    refine ⟨h.bare m hmem, ?_⟩
    rcases h.values m hmem with hd | hd | hd
    · exact absurd hd hnull
    · exact hd
    · rw [hd.isSection] at hsection
      cases hsection
  obtain ⟨body, hbody, hlines⟩ := parses_lines h.distinct hplain
  obtain ⟨sections, hsections, hadds⟩ := adds_sections h.bare h.values
  have hgrown := hadds (leaves (plainMembers ms)) h.nodup
  have hparses : Parses ⟨.root, []⟩ (body ++ sections).toList
      (.table false false (leaves (plainMembers ms) ++ branches ms)) := by
    have hend := hgrown [] [] _ fun current => Parses.nil ⟨_, current⟩
    have hall := hlines [] _ reaches_top _ _ hend
    simpa [Tree.root] using hall
  refine ⟨body ++ sections, by rw [render, hbody, hsections]; rfl, ?_⟩
  unfold read
  dsimp only
  -- Every line takes characters, so the length of the text is fuel enough.
  rw [skipMark_eq hparses, hparses _ (by omega), Option.map_some, Tree.toDocument,
    Tree.toMembers_append, toMembers_leaves, toMembers_branches]
  rfl

end Daq.Toml

import Daq.Proofs.Table
import Daq.Proofs.Text.Reference
import Daq.Topic

set_option autoImplicit false

/-!
# Reading topics

The text of a topic is a reference: the path as it is, and after a question mark the parameters,
form-encoded. If nothing in the path would be rewritten, the reference is resolved to just these two,
and the topic is read back. So is the topic that any text was read as, unless its path starts with
two slashes, or with a slash and a backslash.

## Main definitions

* `Daq.Text.isUnreserved` — the characters that stand for themselves everywhere in a reference.
* `Daq.Text.Reference.Plain` — the paths of slashes and such characters, without dot segments.

## Main results

* `Daq.Text.Reference.resolve_append` — a plain path is resolved to itself, whatever query follows.
* `Daq.Topic.parse_render` — a topic with a plain path is read back.
* `Daq.Topic.parse_render_of_parse` — when a topic that was read is read back.
-/

namespace Daq

namespace Text

/-- The unreserved characters of references: letters, digits and four marks. -/
def isUnreserved (c : Char) : Bool :=
  c.isAlphanum || c == '-' || c == '.' || c == '_' || c == '~'

/-- Unreserved characters are visible one-octet characters. -/
lemma isUnreserved_bounds {c : Char} (h : isUnreserved c = true) :
    0x20 < c.toNat ∧ c.toNat < 0x7F := by
  simp only [isUnreserved, Bool.or_eq_true, beq_iff_eq] at h
  rcases h with (((h | rfl) | rfl) | rfl) | rfl
  · have hbounds := Form.isAlphanum_bounds h
    omega
  all_goals decide

namespace Reference

/-- A path of unreserved characters with one slash in front and without dot segments. -/
structure Plain (path : List Char) : Prop where
  /-- It starts with a slash. -/
  absolute : path.head? = some '/'
  /-- It does not start with two slashes. -/
  single : ¬ ['/', '/'] <+: path
  /-- It has slashes and unreserved characters only. -/
  unreserved : ∀ c ∈ path, c = '/' ∨ isUnreserved c = true
  /-- No segment is one dot or two dots. -/
  undotted : ∀ s ∈ path.splitOn '/', s ≠ ['.'] ∧ s ≠ ['.', '.']

/-! ### Segments -/

/-- A dot is read off a text without percent signs only if it starts with one. -/
lemma dot?_eq_some {s rest : List Char} (hs : '%' ∉ s) (h : dot? s = some rest) : s = '.' :: rest := by
  unfold dot? at h
  split at h
  · rw [Option.some.inj h]
  · exact absurd List.mem_cons_self hs
  · exact absurd List.mem_cons_self hs
  · cases h

/-- A segment without percent signs is a single dot only as it stands. -/
lemma isSingleDot_eq_false {s : List Char} (hs : '%' ∉ s) (h : s ≠ ['.']) : isSingleDot s = false := by
  rw [isSingleDot, beq_eq_false_iff_ne]
  exact fun hdot => h (dot?_eq_some hs hdot)

/-- A segment without percent signs is two dots only as it stands. -/
lemma isDoubleDot_eq_false {s : List Char} (hs : '%' ∉ s) (h : s ≠ ['.', '.']) :
    isDoubleDot s = false := by
  unfold isDoubleDot
  cases hdot : dot? s with
  | none => rfl
  | some rest =>
    have hrest := dot?_eq_some hs hdot
    rw [Option.any_some]
    apply isSingleDot_eq_false
    · rw [hrest] at hs
      exact fun hmem => hs (List.mem_cons_of_mem _ hmem)
    · rintro rfl
      exact h hrest

/-- Unreserved characters are not percent encoded in a path. -/
lemma isEncoded_eq_false {c : Char} (h : isUnreserved c = true) : isEncoded c = false := by
  obtain ⟨hlow, hhigh⟩ := isUnreserved_bounds h
  have hmarks : (['"', '#', '<', '>', '?', '`', '\x7b', '\x7d'].all fun d => !isUnreserved d) =
      true := by decide
  have hnot : ['"', '#', '<', '>', '?', '`', '\x7b', '\x7d'].contains c = false := by
    by_contra hmem
    have hc := List.all_eq_true.mp hmarks c
      (List.contains_iff_mem.mp (Bool.eq_true_of_not_eq_false hmem))
    rw [h] at hc
    cases hc
  rw [isEncoded, hnot, Bool.or_false, Bool.or_eq_false_iff, decide_eq_false_iff_not,
    decide_eq_false_iff_not]
  omega

namespace Plain

variable {path : List Char} (h : Plain path)

include h

/-- Nothing is to be encoded in a plain path. -/
lemma written {c : Char} (hc : c ∈ path) : isEncoded c = false := by
  obtain rfl | hc := h.unreserved c hc
  · decide
  · exact isEncoded_eq_false hc

/-- A plain path is settled. -/
lemma settled : Settled path := by
  refine ⟨h.absolute, fun c hc => h.written hc, fun s hs => ?_⟩
  have hsign : '%' ∉ s := by
    intro hmem
    have hpath : '%' ∈ '/' :: path := by
      rw [← joined_splitOn, joined, List.mem_flatMap]
      exact ⟨s, hs, List.mem_cons_of_mem _ hmem⟩
    have hmem := (List.mem_cons.mp hpath).resolve_left (by decide)
    exact absurd (h.unreserved '%' hmem) (by decide)
  obtain ⟨hone, htwo⟩ := h.undotted s hs
  exact ⟨isSingleDot_eq_false hsign hone, isDoubleDot_eq_false hsign htwo⟩

/-- A plain path starts with one slash. -/
lemma anchored : Anchored path := by
  obtain ⟨rest, rfl⟩ := List.head?_eq_some_iff.mp h.absolute
  refine ⟨rest, rfl, ?_⟩
  cases rest with
  | nil => rfl
  | cons c rest =>
    have hslash : c ≠ '/' := by
      rintro rfl
      exact h.single ⟨rest, rfl⟩
    have hplain := (h.unreserved c (by simp)).resolve_left hslash
    have hback : c ≠ '\\' := by
      rintro rfl
      cases hplain
    simp [isSlash, hslash, hback]

end Plain

/-- **A plain path is resolved to itself**, whatever query follows. -/
theorem resolve_append {path tail : List Char} (h : Plain path)
    (hvisible : ∀ c ∈ tail, 0x20 < c.toNat) (hend : tail.head?.all endsPath = true) :
    resolve (path ++ tail) = .ok ⟨path, queryOf tail⟩ :=
  h.settled.resolve_append hend h.anchored hvisible

end Reference

end Text

/-! ### Topics -/

namespace Topic

open Text

/-- Parameters are read back from their query. -/
lemma paramsOfQuery_queryOf (params : Params) : paramsOfQuery (queryOf params) = params := by
  have hpairs : (params.toList.map fun p => (p.1.toList, p.2.toList)).map
      (fun p => (String.ofList p.1, String.ofList p.2)) = params.toList := by
    rw [List.map_map]
    conv_rhs => rw [← List.map_id params.toList]
    apply List.map_congr_left
    intro p _
    simp only [Function.comp_apply, String.ofList_toList, id_eq]
  rw [paramsOfQuery, queryOf, Form.decode_encode, hpairs]
  exact params.ofList_toList

/-- **A topic with a plain path is read back**, whatever its parameters are: the path starts with one
slash, has slashes and unreserved characters only, and no segment of it is one dot or two dots.

**Proof sketch.** The text has visible characters only, so all of them count. The first question mark
ends the path, of which nothing is rewritten, and no fragment starts in the query. The query is cut
at separators that are written for nothing else, and its parts decode to what was encoded. -/
theorem parse_render (t : Topic) (habsolute : t.path.toList.head? = some '/')
    (hsingle : ¬ ['/', '/'] <+: t.path.toList)
    (hunreserved : ∀ c ∈ t.path.toList, c = '/' ∨ isUnreserved c = true)
    (hundotted : ∀ s ∈ t.path.toList.splitOn '/', s ≠ ['.'] ∧ s ≠ ['.', '.']) :
    parse t.render = .ok t := by
  have hplain : Reference.Plain t.path.toList := ⟨habsolute, hsingle, hunreserved, hundotted⟩
  obtain ⟨path, params⟩ := t
  obtain ⟨rest, hrest⟩ := List.head?_eq_some_iff.mp habsolute
  unfold render
  cases hempty : params.isEmpty with
  | true =>
    have hresolve : Reference.resolve (path.toList ++ []) = .ok ⟨path.toList, Reference.queryOf []⟩ :=
      Reference.resolve_append hplain (by simp) rfl
    have hparams : params = Table.empty := Table.ext_entries (List.isEmpty_iff.mp hempty)
    rw [List.append_nil] at hresolve
    simp only [parse, if_true, habsolute, hresolve, String.ofList_toList, hparams]
    rfl
  | false =>
    have hvisible : ∀ c ∈ '?' :: queryOf params, 0x20 < c.toNat := by
      intro c hc
      rcases List.mem_cons.mp hc with rfl | hc
      · decide
      · exact (Form.encode_bounds hc).1
    have hquery : (queryOf params).takeWhile (· ≠ '#') = queryOf params := by
      rw [List.takeWhile_eq_self_iff]
      intro c hc
      exact decide_eq_true (Form.encode_bounds hc).2.2
    have hresolve := Reference.resolve_append hplain hvisible rfl
    rw [Reference.queryOf, hquery] at hresolve
    have hslash : (path.toList ++ '?' :: queryOf params).head? = some '/' := by
      rw [hrest]
      rfl
    simp only [parse, Bool.false_eq_true, if_false, String.toList_ofList, hslash, if_true, hresolve,
      String.ofList_toList, paramsOfQuery_queryOf]

/-- Separators, escapes, blanks, controls, empty texts and characters of several octets come back
from the text of a topic. -/
theorem parse_render_sample :
    let t : Topic := ⟨"/daq/v1.2/.../", Table.ofList
      [("a&b", "c=d+e %#?,"), ("", ""), ("λ", "\n\x00"), ("k", "")]⟩
    parse t.render = .ok t := by
  intro t
  have hplain : (t.path.toList.all fun c => c == '/' || isUnreserved c) = true := by decide
  refine parse_render t ?_ ?_ ?_ ?_
  · decide
  · decide
  · simpa only [List.all_eq_true, Bool.or_eq_true, beq_iff_eq] using hplain
  · decide

/-! ### Reading again what was read -/

/-- What follows the path in the text of a topic. -/
def tail (params : Params) : List Char := if params.isEmpty then [] else '?' :: queryOf params

/-- The text of a topic is its path and what follows it. -/
lemma toList_render (t : Topic) : t.render.toList = t.path.toList ++ tail t.params := by
  unfold render tail
  split
  · rw [List.append_nil]
  · rw [String.toList_ofList]

/-- What follows the path is visible. -/
lemma visible_tail (params : Params) : ∀ c ∈ tail params, 0x20 < c.toNat := by
  intro c hc
  unfold tail at hc
  split at hc
  · cases hc
  · obtain rfl | hc := List.mem_cons.mp hc
    · decide
    · exact (Form.encode_bounds hc).1

/-- The path ends before what follows it. -/
lemma ends_tail (params : Params) : (tail params).head?.all Reference.endsPath = true := by
  unfold tail
  split <;> rfl

/-- What follows the path is read as the parameters. -/
lemma paramsOfQuery_tail (params : Params) :
    paramsOfQuery (Reference.queryOf (tail params)) = params := by
  unfold tail
  split
  · rename_i hempty
    exact (Table.ext_entries (List.isEmpty_iff.mp hempty)).symm
  · have hquery : (queryOf params).takeWhile (· ≠ '#') = queryOf params := by
      rw [List.takeWhile_eq_self_iff]
      intro c hc
      exact decide_eq_true (Form.encode_bounds hc).2.2
    rw [Reference.queryOf, hquery, paramsOfQuery_queryOf]

/-- A text is read as a topic if it starts with a slash and can be resolved. -/
lemma parse_eq_ok_iff {text : String} {t : Topic} :
    parse text = .ok t ↔ text.toList.head? = some '/' ∧
      ∃ target, Reference.resolve text.toList = .ok target ∧
        t = ⟨String.ofList target.path, paramsOfQuery target.query⟩ := by
  unfold parse
  by_cases hslash : text.toList.head? = some '/'
  · rw [if_pos hslash]
    cases Reference.resolve text.toList with
    | error fault => simp
    | ok target => simp [hslash, eq_comm]
  · rw [if_neg hslash]
    simp [hslash]

/-- **When the text of a topic that was read is read as the same topic.** Take any text that is read.

The path of the topic is empty or starts with a slash, and the latter unless the text names an
authority, after two or more slashes and backslashes. If it starts with one slash, and no other slash
or backslash after it, the text of the topic is read as the same topic. If not, it is not read at
all, or as a topic with a shorter path.

**Proof sketch.** Whatever the text was, the path is resolved, so nothing in it would be rewritten
any more. But two slashes in front, which may be left when dot segments are removed, start an
authority when they are read again, and that is not a part of the path. -/
theorem parse_render_of_parse {text : String} {t : Topic} (h : parse text = .ok t) :
    (t.path = "" ∨ t.path.toList.head? = some '/') ∧
    (((Reference.significant text.toList).takeWhile Reference.isSlash).length ≤ 1 →
      t.path.toList.head? = some '/') ∧
    (Reference.Anchored t.path.toList → parse t.render = .ok t) ∧
    (¬ Reference.Anchored t.path.toList →
      ∀ u, parse t.render = .ok u → u.path.toList.length < t.path.toList.length) := by
  obtain ⟨-, target, hresolve, rfl⟩ := parse_eq_ok_iff.mp h
  have hpath : (⟨String.ofList target.path, paramsOfQuery target.query⟩ : Topic).path.toList =
      target.path := String.toList_ofList
  have hsettled := Reference.settled_of_resolve hresolve
  rw [hpath]
  refine ⟨?_, fun hone => (Reference.settled_of_single hresolve hone).absolute, ?_, ?_⟩
  · obtain hempty | hsettled := hsettled
    · left
      rw [hempty]
    · exact .inr hsettled.absolute
  · intro hanchored
    have hslash : target.path.head? = some '/' := by
      obtain ⟨rest, hrest, -⟩ := hanchored
      rw [hrest]
      rfl
    obtain hempty | hsettled := hsettled
    · rw [hempty] at hslash
      cases hslash
    · have hagain := hsettled.resolve_append (ends_tail (paramsOfQuery target.query)) hanchored
        (visible_tail _)
      rw [parse_eq_ok_iff, toList_render, hpath]
      refine ⟨by rw [List.head?_append, hslash]; rfl, _, hagain, ?_⟩
      rw [paramsOfQuery_tail]
  · intro hanchored u hu
    rw [parse_eq_ok_iff, toList_render, hpath] at hu
    obtain ⟨hslash, again, hagain, rfl⟩ := hu
    obtain hempty | hsettled := hsettled
    · -- What follows a path does not start with a slash.
      have hends := ends_tail (paramsOfQuery target.query)
      rw [hempty, List.nil_append] at hslash
      rw [hslash] at hends
      cases hends
    · rw [String.toList_ofList]
      exact hsettled.length_lt_of_resolve (ends_tail _) hanchored (visible_tail _) hagain

/-- Dot segments, blanks, escapes, a repeated name and a fragment are dealt with once and not
again. -/
theorem parse_render_of_parse_sample :
    ∃ t, parse "/daq/./x y/../a%2f b?c=1&c=%32+#top" = .ok t ∧ parse t.render = .ok t := by
  have hread : parse "/daq/./x y/../a%2f b?c=1&c=%32+#top" =
      .ok ⟨"/daq/a%2f%20b", Table.ofList [("c", "2 ")]⟩ := by decide +kernel
  obtain ⟨-, -, hagain, -⟩ := parse_render_of_parse hread
  exact ⟨_, hread, hagain ⟨"daq/a%2f%20b".toList, by decide +kernel, by decide +kernel⟩⟩

/-- The text of a topic may be read as another topic, and a topic may have no path. -/
theorem parse_unstable :
    (∃ t, parse "/a/..//b" = .ok t ∧ parse t.render ≠ .ok t) ∧
      ∃ t, parse "//host" = .ok t ∧ t.path.toList.head? ≠ some '/' := by
  refine ⟨⟨⟨"//b", .empty⟩, ?_, ?_⟩, ⟨"", .empty⟩, ?_, ?_⟩
  · decide +kernel
  · decide +kernel
  · decide +kernel
  · decide +kernel

end Topic

end Daq

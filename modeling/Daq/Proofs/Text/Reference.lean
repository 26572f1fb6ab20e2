import Daq.Proofs.Routing
import Daq.Proofs.Text.Form
import Daq.Text.Reference

set_option autoImplicit false

/-!
# Resolving references again

The path of a reference is settled once it is resolved: what may not stand in a path is encoded, and
no dot segments are left. Read as a reference again, a settled path is resolved to itself, if it
starts with one slash. If it starts with two, or with a slash and a backslash, its first segments are
taken for an authority, and what is left of the path is shorter.

## Main definitions

* `Daq.Text.Reference.Settled` — paths in which nothing would be rewritten.
* `Daq.Text.Reference.Anchored` — paths that are not taken for an authority.

## Main results

* `Daq.Text.Reference.settled_of_resolve` — a resolved path is empty or settled.
* `Daq.Text.Reference.Settled.resolve_append` — a settled and anchored path is resolved to itself,
  whatever query follows.
* `Daq.Text.Reference.Settled.length_lt_of_resolve` — a settled path that is not anchored is resolved
  to a shorter one, if at all.
-/

namespace Daq.Text.Reference

/-- Whether a character is a slash or a backslash. -/
def isSlash (c : Char) : Bool := c == '/' || c == '\\'

/-- An absolute path in which nothing would be rewritten. -/
structure Settled (path : List Char) : Prop where
  /-- It starts with a slash. -/
  absolute : path.head? = some '/'
  /-- No character has to be encoded. -/
  written : ∀ c ∈ path, isEncoded c = false
  /-- There are no dot segments. -/
  undotted : ∀ s ∈ path.splitOn '/', isSingleDot s = false ∧ isDoubleDot s = false

/-- A path that starts with one slash, and no other slash or backslash after it. -/
def Anchored (path : List Char) : Prop :=
  ∃ rest, path = '/' :: rest ∧ rest.head?.all (fun c => !isSlash c) = true

/-! ### Segments -/

/-- The characters of a written segment are its own, or belong to an escape. -/
lemma mem_encodeSegment {s : List Char} {c : Char} (h : c ∈ encodeSegment s) :
    (c ∈ s ∧ isEncoded c = false) ∨ c = '%' ∨ ∃ n < 16, c = Percent.hexDigit n := by
  obtain ⟨d, hd, hc⟩ := List.mem_flatMap.mp h
  split at hc
  · obtain ⟨b, hb, hc⟩ := List.mem_flatMap.mp hc
    have hbound := Utf8.lt_of_mem_encodeChar hb
    simp only [Percent.encodeOctet, List.mem_cons, List.not_mem_nil, or_false] at hc
    obtain rfl | rfl | rfl := hc
    · exact .inr (.inl rfl)
    · exact .inr (.inr ⟨b / 16, by omega, rfl⟩)
    · exact .inr (.inr ⟨b % 16, by omega, rfl⟩)
  · rename_i hplain
    obtain rfl := List.mem_singleton.mp hc
    exact .inl ⟨hd, by simpa using hplain⟩

/-- Digits of escapes are not encoded, and they are no slashes. -/
lemma isEncoded_hexDigit :
    ∀ n < 16, isEncoded (Percent.hexDigit n) = false ∧ Percent.hexDigit n ≠ '/' := by decide

/-- Nothing is left to encode in a written segment. -/
lemma isEncoded_of_mem_encodeSegment {s : List Char} {c : Char} (h : c ∈ encodeSegment s) :
    isEncoded c = false := by
  obtain ⟨-, hc⟩ | rfl | ⟨n, hn, rfl⟩ := mem_encodeSegment h
  · exact hc
  · decide
  · exact (isEncoded_hexDigit n hn).1

/-- A written segment has no slashes. -/
lemma slash_not_mem_encodeSegment {s : List Char} (h : '/' ∉ s) : '/' ∉ encodeSegment s := by
  intro hmem
  obtain ⟨hs, -⟩ | hsign | ⟨n, hn, hdigit⟩ := mem_encodeSegment hmem
  · exact h hs
  · exact absurd hsign (by decide)
  · exact (isEncoded_hexDigit n hn).2 hdigit.symm

/-- A segment in which nothing is to be encoded is written as it is. -/
lemma encodeSegment_eq_self {s : List Char} (h : ∀ c ∈ s, isEncoded c = false) :
    encodeSegment s = s := by
  unfold encodeSegment
  induction s with
  | nil => rfl
  | cons c s ih =>
    rw [List.flatMap_cons, h c List.mem_cons_self, ih fun d hd => h d (List.mem_cons_of_mem _ hd)]
    rfl

/-- The directories after a segment; a dot segment at the end leaves an empty segment. -/
def enter (dirs : List (List Char)) (s : List Char) (last : Bool) : List (List Char) :=
  if isDoubleDot s then (if last then [] :: parent dirs else parent dirs)
  else if isSingleDot s then (if last then [] :: dirs else dirs)
  else s :: dirs

/-- Dot segments are removed one segment after the other. -/
lemma normalize_cons (dirs : List (List Char)) (s : List Char) (rest : List (List Char)) :
    normalize dirs (s :: rest) = normalize (enter dirs s rest.isEmpty) rest := by
  unfold enter
  cases hdouble : isDoubleDot s <;> cases hsingle : isSingleDot s <;> cases rest <;>
    simp [normalize, hdouble, hsingle]

/-- Segments that are no dot segments are kept. -/
lemma normalize_eq {segments : List (List Char)} (dirs : List (List Char))
    (h : ∀ s ∈ segments, isSingleDot s = false ∧ isDoubleDot s = false) :
    normalize dirs segments = dirs.reverse ++ segments := by
  induction segments generalizing dirs with
  | nil => simp [normalize]
  | cons s rest ih =>
    obtain ⟨hsingle, hdouble⟩ := h s List.mem_cons_self
    have henter : enter dirs s rest.isEmpty = s :: dirs := by simp [enter, hsingle, hdouble]
    rw [normalize_cons, henter, ih (s :: dirs) fun u hu => h u (List.mem_cons_of_mem _ hu)]
    simp

/-- The directories above are among the directories. -/
lemma parent_sublist (dirs : List (List Char)) : List.Sublist (parent dirs) dirs := by
  cases dirs with
  | nil => exact .refl []
  | cons s rest =>
    rw [parent]
    split
    · exact .refl _
    · exact List.sublist_cons_self s rest

/-- **What holds of all segments but dot segments holds of what is left of them**, if it holds of
empty segments. -/
lemma forall_normalize {P : List Char → Prop} (hempty : P []) {segments dirs : List (List Char)}
    (hdirs : ∀ s ∈ dirs, P s)
    (h : ∀ s ∈ segments, isSingleDot s = false → isDoubleDot s = false → P s) :
    ∀ s ∈ normalize dirs segments, P s := by
  induction segments generalizing dirs with
  | nil =>
    intro s hs
    exact hdirs s (List.mem_reverse.mp hs)
  | cons t rest ih =>
    rw [normalize_cons]
    refine ih ?_ fun u hu => h u (List.mem_cons_of_mem t hu)
    have habove : ∀ s ∈ parent dirs, P s := fun s hs => hdirs s ((parent_sublist dirs).subset hs)
    unfold enter
    split
    · split
      · exact List.forall_mem_cons.mpr ⟨hempty, habove⟩
      · exact habove
    · rename_i hdouble
      split
      · split
        · exact List.forall_mem_cons.mpr ⟨hempty, hdirs⟩
        · exact hdirs
      · rename_i hsingle
        have ht := h t List.mem_cons_self (Bool.eq_false_of_not_eq_true hsingle)
          (Bool.eq_false_of_not_eq_true hdouble)
        exact List.forall_mem_cons.mpr ⟨ht, hdirs⟩

/-- Something is left of segments. -/
lemma normalize_ne_nil {segments : List (List Char)} (dirs : List (List Char))
    (h : segments ≠ []) : normalize dirs segments ≠ [] := by
  induction segments generalizing dirs with
  | nil => exact absurd rfl h
  | cons s rest ih =>
    rw [normalize_cons]
    cases rest with
    | cons t rest => exact ih _ (List.cons_ne_nil t rest)
    | nil =>
      rw [normalize, ne_eq, List.reverse_eq_nil_iff]
      unfold enter
      split
      · simp
      · split <;> simp

/-! ### Paths of segments -/

/-- Segments with a slash before each of them. -/
def joined (segments : List (List Char)) : List Char := segments.flatMap ('/' :: ·)

/-- Segments are joined by slashes, with one more in front. -/
lemma joined_eq {segments : List (List Char)} (h : segments ≠ []) :
    joined segments = '/' :: ['/'].intercalate segments := by
  unfold joined
  induction segments with
  | nil => exact absurd rfl h
  | cons t rest ih =>
    cases rest with
    | nil => simp
    | cons u rest =>
      rw [List.flatMap_cons, ih (List.cons_ne_nil u rest), List.intercalate_cons_cons]
      simp

/-- The segments of a text, joined again. -/
lemma joined_splitOn (s : List Char) : joined (s.splitOn '/') = '/' :: s := by
  rw [joined_eq (List.splitOn_ne_nil _ _), List.intercalate_splitOn]

/-- The parts of a text after a slash are the segments of the text, after an empty one. -/
lemma splitOn_cons_slash (s : List Char) : ('/' :: s).splitOn '/' = [] :: s.splitOn '/' := by
  rw [List.splitOn_cons_eq_if_modifyHead, if_pos (by rfl)]

/-- The length of joined segments. -/
lemma length_joined (segments : List (List Char)) :
    (joined segments).length = (segments.map fun s => s.length + 1).sum := by
  unfold joined
  rw [List.length_flatMap]
  rfl

/-- Nothing gets longer when dot segments are removed. -/
lemma length_joined_normalize (segments dirs : List (List Char)) :
    (joined (normalize dirs segments)).length ≤ (joined (dirs.reverse ++ segments)).length := by
  induction segments generalizing dirs with
  | nil => simp [normalize]
  | cons s rest ih =>
    have habove : ((parent dirs).map fun t => t.length + 1).sum ≤
        (dirs.map fun t => t.length + 1).sum := by
      cases dirs with
      | nil => exact Nat.le_refl 0
      | cons t dirs =>
        rw [parent]
        split
        · exact Nat.le_refl _
        · exact Nat.le_add_left _ _
    have henter : ((enter dirs s rest.isEmpty).map fun t => t.length + 1).sum ≤
        (dirs.map fun t => t.length + 1).sum + (s.length + 1) := by
      unfold enter
      split
      · split
        · rw [List.map_cons, List.sum_cons, List.length_nil]
          omega
        · omega
      · split
        · split
          · rw [List.map_cons, List.sum_cons, List.length_nil]
            omega
          · omega
        · rw [List.map_cons, List.sum_cons]
          omega
    have hrest := ih (enter dirs s rest.isEmpty)
    rw [normalize_cons]
    simp only [length_joined, List.map_append, List.map_reverse, List.sum_append, List.sum_reverse,
      List.map_cons, List.sum_cons] at hrest ⊢
    omega

/-- **The path of segments is settled.** -/
theorem settled_pathOf {segments : List (List Char)} (hne : segments ≠ [])
    (h : ∀ s ∈ segments, '/' ∉ s) : Settled (pathOf segments) := by
  have hleft : ∀ s ∈ normalize [] (segments.map encodeSegment),
      '/' ∉ s ∧ (∀ c ∈ s, isEncoded c = false) ∧ isSingleDot s = false ∧ isDoubleDot s = false := by
    refine forall_normalize (by simp [isSingleDot, isDoubleDot, dot?]) (by simp) ?_
    intro s hs hsingle hdouble
    obtain ⟨u, hu, rfl⟩ := List.mem_map.mp hs
    exact ⟨slash_not_mem_encodeSegment (h u hu), fun c hc => isEncoded_of_mem_encodeSegment hc,
      hsingle, hdouble⟩
  have hsome : normalize [] (segments.map encodeSegment) ≠ [] :=
    normalize_ne_nil [] (by simpa using hne)
  change Settled (joined (normalize [] (segments.map encodeSegment)))
  rw [joined_eq hsome]
  refine ⟨rfl, ?_, ?_⟩
  · intro c hc
    rw [← joined_eq hsome] at hc
    obtain ⟨s, hs, hc⟩ := List.mem_flatMap.mp hc
    obtain rfl | hc := List.mem_cons.mp hc
    · decide
    · exact (hleft s hs).2.1 c hc
  · intro s hs
    rw [splitOn_cons_slash, List.splitOn_intercalate '/' (fun s hs => (hleft s hs).1) hsome] at hs
    obtain rfl | hs := List.mem_cons.mp hs
    · exact ⟨rfl, rfl⟩
    · exact (hleft s hs).2.2

/-- The path of a text after a slash is settled. -/
lemma settled_pathAfterSlash (s : List Char) : Settled (pathAfterSlash s) :=
  settled_pathOf (List.splitOn_ne_nil _ _) fun _ ht => not_mem_of_mem_splitOn ht

/-- Segments in which nothing is to be encoded are written as they are. -/
lemma map_encodeSegment {s : List Char} (h : ∀ c ∈ s, isEncoded c = false) :
    (s.splitOn '/').map encodeSegment = s.splitOn '/' := by
  conv_rhs => rw [← List.map_id (s.splitOn '/')]
  refine List.map_congr_left fun t ht => encodeSegment_eq_self fun c hc => ?_
  have hmem : c ∈ '/' :: s := by
    rw [← joined_splitOn, joined, List.mem_flatMap]
    exact ⟨t, ht, List.mem_cons_of_mem _ hc⟩
  obtain rfl | hmem := List.mem_cons.mp hmem
  · decide
  · exact h c hmem

/-- **A settled path is the path of its segments.** -/
lemma Settled.pathAfterSlash_eq {rest : List Char} (h : Settled ('/' :: rest)) :
    pathAfterSlash rest = '/' :: rest := by
  have hundotted : ∀ s ∈ rest.splitOn '/', isSingleDot s = false ∧ isDoubleDot s = false := by
    intro s hs
    refine h.undotted s ?_
    rw [splitOn_cons_slash]
    exact List.mem_cons_of_mem _ hs
  have hwritten : ∀ c ∈ rest, isEncoded c = false := fun c hc =>
    h.written c (List.mem_cons_of_mem _ hc)
  rw [pathAfterSlash, pathOf, map_encodeSegment hwritten, normalize_eq [] hundotted]
  exact joined_splitOn rest

/-- The path of a text in which nothing is to be encoded has at most one character more. -/
lemma length_pathAfterSlash_le {s : List Char} (h : ∀ c ∈ s, isEncoded c = false) :
    (pathAfterSlash s).length ≤ s.length + 1 := by
  have hlength := length_joined_normalize (s.splitOn '/') []
  rw [List.reverse_nil, List.nil_append, joined_splitOn, List.length_cons] at hlength
  rw [pathAfterSlash, pathOf, map_encodeSegment h]
  exact hlength

/-! ### References -/

/-- In a text of visible characters all characters count. -/
lemma significant_eq {s : List Char} (h : ∀ c ∈ s, 0x20 < c.toNat) : significant s = s := by
  have hend : s.reverse.dropWhile (fun c => decide (c.toNat ≤ 0x20)) = s.reverse := by
    rw [List.dropWhile_eq_self_iff]
    intro hpos
    have hvisible := h _ (List.mem_reverse.mp (List.getElem_mem hpos))
    simpa using hvisible
  rw [significant, hend, List.reverse_reverse, List.filter_eq_self]
  intro c hc
  have hvisible := h c hc
  rw [Bool.not_eq_true', Bool.or_eq_false_iff, Bool.or_eq_false_iff, beq_eq_false_iff_ne,
    beq_eq_false_iff_ne, beq_eq_false_iff_ne]
  refine ⟨⟨?_, ?_⟩, ?_⟩ <;>
  · rintro rfl
    exact absurd hvisible (by decide)

/-- The text in which an authority is looked for. -/
def afterSlashes (s : List Char) : List Char :=
  match s with
  | '/' :: '/' :: rest => rest
  | s => s.dropWhile isSlash

/-- A reference that starts with one slash has a path; one that starts with more has an authority. -/
lemma resolve_eq (text : List Char) :
    resolve text =
      if ((significant text).takeWhile isSlash).length ≤ 1 then
        .ok (target pathAfterSlash ((significant text).drop 1))
      else
        afterAuthority (afterSlashes (significant text)) >>= fun rest =>
          .ok (target pathAfterAuthority rest) := rfl

/-- **A reference that starts with one slash has a settled path.** -/
theorem settled_of_single {text : List Char} {t : Target} (ht : resolve text = .ok t)
    (hone : ((significant text).takeWhile isSlash).length ≤ 1) : Settled t.path := by
  rw [resolve_eq, if_pos hone] at ht
  cases ht
  exact settled_pathAfterSlash _

/-- **A resolved path is empty or settled.** -/
theorem settled_of_resolve {text : List Char} {t : Target} (ht : resolve text = .ok t) :
    t.path = [] ∨ Settled t.path := by
  by_cases hone : ((significant text).takeWhile isSlash).length ≤ 1
  · exact .inr (settled_of_single ht hone)
  · rw [resolve_eq, if_neg hone] at ht
    cases hrest : afterAuthority (afterSlashes (significant text)) with
    | error fault =>
      rw [hrest] at ht
      cases ht
    | ok rest =>
      rw [hrest] at ht
      cases ht
      dsimp only [target]
      unfold pathAfterAuthority
      split
      · exact .inl rfl
      · exact .inr (settled_pathAfterSlash _)
      · exact .inr (settled_pathAfterSlash _)

/-- A settled path is visible. -/
lemma Settled.visible {path : List Char} (h : Settled path) {c : Char} (hc : c ∈ path) :
    0x20 < c.toNat := by
  have hwritten := h.written c hc
  simp only [isEncoded, Bool.or_eq_false_iff, decide_eq_false_iff_not] at hwritten
  omega

/-- No character that ends a path is a slash. -/
lemma isSlash_eq_false {c : Char} (h : endsPath c = true) : isSlash c = false := by
  simp only [endsPath, Bool.or_eq_true, beq_iff_eq] at h
  obtain rfl | rfl := h <;> rfl

/-- All characters of a settled path and a visible text count. -/
lemma Settled.significant_append {path tail : List Char} (h : Settled path)
    (hvisible : ∀ c ∈ tail, 0x20 < c.toNat) : significant (path ++ tail) = path ++ tail := by
  apply significant_eq
  intro c hc
  obtain hc | hc := List.mem_append.mp hc
  · exact h.visible hc
  · exact hvisible c hc

/-- A character that is not encoded does not end a path. -/
lemma endsPath_eq_false {c : Char} (h : isEncoded c = false) : endsPath c = false := by
  rw [endsPath, Bool.or_eq_false_iff, beq_eq_false_iff_ne, beq_eq_false_iff_ne]
  constructor <;>
  · rintro rfl
    exact absurd h (by decide)

section Tail

variable {path tail : List Char} (hend : tail.head?.all endsPath = true)

include hend

/-- What a path does not go on with is cut off after a path. -/
lemma dropWhile_append_tail {p : Char → Bool} (hp : ∀ c, endsPath c = true → p c = false)
    (s : List Char) : (s ++ tail).dropWhile p = s.dropWhile p ++ tail := by
  rw [List.dropWhile_append]
  split
  · rename_i hs
    rw [List.isEmpty_iff.mp hs]
    cases tail with
    | nil => rfl
    | cons c tail =>
      rw [List.head?_cons, Option.all_some] at hend
      rw [List.dropWhile_cons_of_neg (by simp [hp c hend]), List.nil_append]
  · rfl

/-- Nothing that follows a path is taken for a part of it. -/
lemma takeWhile_append_tail {p : Char → Bool} (hp : ∀ c, endsPath c = true → p c = false)
    (s : List Char) : (s ++ tail).takeWhile p = s.takeWhile p := by
  have hdrop := dropWhile_append_tail hend hp s
  have hsplit := List.takeWhile_append_dropWhile (p := p) (l := s ++ tail)
  rw [hdrop, ← List.append_assoc] at hsplit
  have hs := List.append_cancel_right hsplit
  conv_rhs at hs => rw [← List.takeWhile_append_dropWhile (p := p) (l := s)]
  exact List.append_cancel_right hs

/-- **A settled and anchored path is resolved to itself**, whatever query follows. -/
theorem Settled.resolve_append (h : Settled path) (ha : Anchored path)
    (hvisible : ∀ c ∈ tail, 0x20 < c.toNat) :
    resolve (path ++ tail) = .ok ⟨path, queryOf tail⟩ := by
  have hsignificant := h.significant_append hvisible
  obtain ⟨rest, rfl, hnext⟩ := ha
  have hone : (('/' :: rest ++ tail).takeWhile isSlash).length ≤ 1 := by
    rw [takeWhile_append_tail hend (fun _ => isSlash_eq_false), List.takeWhile_cons_of_pos (by rfl)]
    cases rest with
    | nil => exact Nat.le_refl 1
    | cons c rest =>
      rw [List.head?_cons, Option.all_some] at hnext
      rw [List.takeWhile_cons_of_neg (by simpa using hnext)]
      exact Nat.le_refl 1
  have hrest : ∀ c ∈ rest, (!endsPath c) = true := fun c hc => by
    rw [endsPath_eq_false (h.written c (List.mem_cons_of_mem _ hc))]
    rfl
  have hnot : ∀ c, endsPath c = true → (!endsPath c) = false := fun c hc => by rw [hc]; rfl
  rw [resolve_eq, hsignificant, if_pos hone, List.cons_append, List.drop_succ_cons, List.drop_zero,
    target, takeWhile_append_tail hend hnot, dropWhile_append_tail hend hnot,
    List.takeWhile_eq_self_iff.mpr hrest, List.dropWhile_eq_nil_iff.mpr hrest, List.nil_append,
    h.pathAfterSlash_eq]

/-! ### Authorities -/

/-- A host ends within the path. -/
lemma spanHost_append (bracketed : Bool) (p : List Char) :
    ∃ q, q <:+ p ∧ (spanHost bracketed (p ++ tail)).2 = q ++ tail := by
  induction p generalizing bracketed with
  | nil =>
    refine ⟨[], List.suffix_refl [], ?_⟩
    cases tail with
    | nil => rfl
    | cons c tail =>
      rw [List.head?_cons, Option.all_some] at hend
      simp only [endsPath, Bool.or_eq_true, beq_iff_eq] at hend
      rw [List.nil_append, spanHost, if_pos (.inr (.inr hend))]
  | cons c p ih =>
    rw [List.cons_append, spanHost]
    split
    · exact ⟨c :: p, List.suffix_refl _, rfl⟩
    · obtain ⟨q, hq, heq⟩ := ih (if c = '[' then true else if c = ']' then false else bracketed)
      exact ⟨q, hq.trans (List.suffix_cons c p), heq⟩

/-- A port ends within the path. -/
lemma afterPort_append {n : Nat} {p rest : List Char} (h : afterPort n (p ++ tail) = .ok rest) :
    ∃ q, q <:+ p ∧ rest = q ++ tail := by
  induction p generalizing n with
  | nil =>
    refine ⟨[], List.suffix_refl [], ?_⟩
    cases tail with
    | nil =>
      cases h
      rfl
    | cons c tail =>
      rw [List.head?_cons, Option.all_some] at hend
      simp only [endsPath, Bool.or_eq_true, beq_iff_eq] at hend
      have hdigit : digit? c = none := by obtain rfl | rfl := hend <;> rfl
      rw [List.nil_append, afterPort, hdigit] at h
      dsimp only at h
      rw [if_pos (.inr (.inr hend))] at h
      cases h
      rfl
  | cons c p ih =>
    rw [List.cons_append, afterPort] at h
    split at h
    · split at h
      · obtain ⟨q, hq, heq⟩ := ih h
        exact ⟨q, hq.trans (List.suffix_cons c p), heq⟩
      · cases h
    · split at h
      · cases h
        exact ⟨c :: p, List.suffix_refl _, rfl⟩
      · cases h

/-- User information ends within the path. -/
lemma splitUser_append (p : List Char) :
    ∃ q, q <:+ p ∧ (splitUser (p ++ tail)).2 = q ++ tail := by
  have hnot : ∀ c, endsPath c = true → (!endsAuthority c) = false := by
    intro c hc
    simp only [endsPath, Bool.or_eq_true, beq_iff_eq] at hc
    obtain rfl | rfl := hc <;> rfl
  unfold splitUser
  rw [takeWhile_append_tail hend hnot, dropWhile_append_tail hend hnot]
  dsimp only
  split
  · refine ⟨_, ?_, (List.append_assoc _ _ _).symm⟩
    have hhost := List.reverse_suffix.mpr (List.takeWhile_prefix (fun c => decide (c ≠ '@'))
      (l := (p.takeWhile fun c => !endsAuthority c).reverse))
    rw [List.reverse_reverse] at hhost
    obtain ⟨front, hfront⟩ := hhost
    exact ⟨front, by rw [← List.append_assoc, hfront, List.takeWhile_append_dropWhile]⟩
  · exact ⟨p, List.suffix_refl p, rfl⟩

/-- **An authority ends within the path.** -/
lemma afterAuthority_append {p rest : List Char} (h : afterAuthority (p ++ tail) = .ok rest) :
    ∃ q, q <:+ p ∧ rest = q ++ tail := by
  obtain ⟨q, hq, huser⟩ := splitUser_append hend p
  obtain ⟨r, hr, hhost⟩ := spanHost_append hend false q
  unfold afterAuthority at h
  rw [← Prod.mk.eta (p := splitUser (p ++ tail)), huser] at h
  simp only [bind, Except.bind] at h
  split at h
  · cases h
  · rw [hhost] at h
    split at h
    · cases h
    · split at h
      · rename_i port hport
        split at h
        · cases h
        · -- The colon before the port is a part of the path.
          cases r with
          | nil =>
            rw [List.nil_append] at hport
            rw [hport] at hend
            cases hend
          | cons c r =>
            obtain ⟨rfl, rfl⟩ := List.cons.inj hport
            obtain ⟨l, hl, heq⟩ := afterPort_append hend h
            exact ⟨l, hl.trans ((List.suffix_cons _ r).trans (hr.trans hq)), heq⟩
      · split at h
        · cases h
        · cases h
          exact ⟨r, hr.trans hq, rfl⟩

/-- What stands before an authority ends within the path. -/
lemma afterSlashes_append {c : Char} (hc : isSlash c = true) (p : List Char) :
    ∃ q, q <:+ p ∧ afterSlashes ('/' :: c :: p ++ tail) = q ++ tail := by
  rw [isSlash, Bool.or_eq_true, beq_iff_eq, beq_iff_eq] at hc
  obtain rfl | rfl := hc
  · exact ⟨p, List.suffix_refl p, rfl⟩
  · refine ⟨p.dropWhile isSlash, List.dropWhile_suffix isSlash, ?_⟩
    exact dropWhile_append_tail hend (fun _ => isSlash_eq_false) p

/-- **A settled path that is not anchored is resolved to a shorter one**, if at all, whatever query
follows. -/
theorem Settled.length_lt_of_resolve (h : Settled path) (ha : ¬ Anchored path)
    (hvisible : ∀ c ∈ tail, 0x20 < c.toNat) {t : Target} (ht : resolve (path ++ tail) = .ok t) :
    t.path.length < path.length := by
  have hsignificant := h.significant_append hvisible
  obtain ⟨rest, rfl⟩ := List.head?_eq_some_iff.mp h.absolute
  obtain ⟨c, p, rfl, hc⟩ : ∃ c p, rest = c :: p ∧ isSlash c = true := by
    cases rest with
    | nil => exact absurd ⟨[], rfl, rfl⟩ ha
    | cons c p =>
      refine ⟨c, p, rfl, ?_⟩
      by_contra hc
      exact ha ⟨c :: p, rfl, by simpa using hc⟩
  have hmore : ¬ (('/' :: c :: p ++ tail).takeWhile isSlash).length ≤ 1 := by
    rw [List.cons_append, List.cons_append, List.takeWhile_cons_of_pos (by rfl),
      List.takeWhile_cons_of_pos hc, List.length_cons, List.length_cons]
    omega
  obtain ⟨q, hq, hslashes⟩ := afterSlashes_append hend hc p
  rw [resolve_eq, hsignificant, if_neg hmore, hslashes] at ht
  cases hrest : afterAuthority (q ++ tail) with
  | error fault =>
    rw [hrest] at ht
    cases ht
  | ok rest =>
    rw [hrest] at ht
    cases ht
    obtain ⟨l, hl, rfl⟩ := afterAuthority_append hend hrest
    have hwritten : ∀ d ∈ l, isEncoded d = false := fun d hd =>
      h.written d (List.mem_cons_of_mem _ (List.mem_cons_of_mem _ ((hl.trans hq).subset hd)))
    have hpath : (l ++ tail).takeWhile (fun d => !endsPath d) = l := by
      rw [takeWhile_append_tail hend fun d hd => by rw [hd]; rfl, List.takeWhile_eq_self_iff]
      intro d hd
      rw [endsPath_eq_false (hwritten d hd)]
      rfl
    have hlength : (pathAfterAuthority l).length ≤ l.length + 1 := by
      unfold pathAfterAuthority
      split
      · exact Nat.zero_le _
      · rename_i s
        have hs := length_pathAfterSlash_le fun d hd => hwritten d (List.mem_cons_of_mem _ hd)
        rw [List.length_cons]
        omega
      · exact length_pathAfterSlash_le hwritten
    have hsuffix := (hl.trans hq).length_le
    dsimp only [target]
    rw [hpath, List.length_cons, List.length_cons]
    omega

end Tail

end Daq.Text.Reference

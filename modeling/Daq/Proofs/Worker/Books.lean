import Daq.Proofs.Worker.Scene

set_option autoImplicit false

/-!
# Books on pollers

Whoever watches a worker can keep books on its pollers: every item that a queue ever accepted, and
every notification that was handed out from it. Step by step the books balance: what a queue has
accepted is what was answered, followed by what is in the hands of the pass and what the queue still
holds. And a pass that has seen only finished producers so far has left nothing behind at the
pollers it has visited.

The second fact rests on the order of two steps: the flag of a producer is read before its queue is
emptied.

## Main definitions

* `Daq.Books` — what arrived at the pollers and what was handed out from them.
* `Daq.Hub.Exhausted` — nothing waits at a poller, and nothing more will come.
* `Daq.Balanced` — the books agree with tables, queues and pass.

## Main results

* `Daq.Balanced.evolves` — what producers do keeps the books balanced.
* `Daq.Balanced.beginWalk`, `approach`, `proceed`, `endWalk` — so does every step of a pass.
* `Daq.Balanced.clear` — so does letting go of all pollers.
-/

namespace Daq

namespace Hub

/-- What was appended to the queue of a poller. -/
def appended (h h' : Hub) (p : PollerRef) : List Item := (h'.items p).drop (h.items p).length

/-- A queue that has grown holds what it held before and what was appended. -/
lemma append_appended {h h' : Hub} {p : PollerRef} (hp : h.items p <+: h'.items p) :
    h.items p ++ h.appended h' p = h'.items p := by
  obtain ⟨more, hmore⟩ := hp
  rw [appended, ← hmore, List.drop_left]

/-- Nothing was appended to a queue that has not become longer. -/
lemma appended_eq_nil {h h' : Hub} {p : PollerRef}
    (hp : (h'.items p).length ≤ (h.items p).length) : h.appended h' p = [] :=
  List.drop_eq_nil_of_le hp

/-- Taking an item makes no queue longer. -/
lemma Consumed.length_le {h h' : Hub} {p : PollerRef} (hc : h.Consumed h' p) {item : Item}
    (hpop : h.items p = item :: h'.items p) (q : PollerRef) :
    (h'.items q).length ≤ (h.items q).length := by
  by_cases hq : q = p
  · rw [hq, hpop, List.length_cons]
    exact Nat.le_succ _
  · rw [hc.others q hq]

/-- Nothing waits at a poller, and its sink has stopped. -/
def Exhausted (h : Hub) (p : PollerRef) : Prop := h.IsStopped p.sink ∧ h.items p = []

/-- A poller stays exhausted, whatever the producers do. -/
lemma Exhausted.evolves {h h' : Hub} {p : PollerRef} (hx : h.Exhausted p) (hw : h.WellFormed)
    (e : h.Evolves h') : h'.Exhausted p :=
  ⟨e.isStopped hx.1, (e.silent hw hx.1).trans hx.2⟩

end Hub

/-- Books on the pollers of a worker. -/
structure Books where
  /-- The items that the queue of a poller has accepted. -/
  arrived : PollerRef → List Item
  /-- The notifications that were handed out from a poller. -/
  handed : PollerRef → List Notification

namespace Books

/-- Enter what was appended to the queues. -/
def note (b : Books) (h h' : Hub) : Books :=
  { b with arrived := fun p => b.arrived p ++ h.appended h' p }

/-- Nothing is to be entered if no queue has become longer. -/
lemma note_eq_self (b : Books) {h h' : Hub}
    (hle : ∀ p, (h'.items p).length ≤ (h.items p).length) : b.note h h' = b := by
  have harrived : (fun p => b.arrived p ++ h.appended h' p) = b.arrived := by
    funext p
    rw [Hub.appended_eq_nil (hle p), List.append_nil]
  unfold note
  rw [harrived]

/-- Enter a notification. -/
def enter (b : Books) (p : PollerRef) (n : Notification) : Books :=
  { b with handed := fun q => if q = p then b.handed q ++ [n] else b.handed q }

end Books

/-- The visit under way, if a pass is under way and visits a poller. -/
def stop? (w : Option Walk) : Option Stop := w.bind fun v => v.current

/-- The walk with its visit further on. -/
def Walk.moveTo (w : Walk) (x : Stop) (progress : Progress) : Walk :=
  { w with current := some { x with progress } }

/-- What the pass holds of the poller of a key. -/
def inHand (w : Option Walk) (k : PollerKey) : List Item :=
  match stop? w with
  | some x => if x.visit.key = k then x.progress.inHand else []
  | none => []

/-- The books agree with tables, queues and pass. -/
structure Balanced (r : Reconciler) (h : Hub) (w : Option Walk) (b : Books) : Prop where
  /-- The reconciler is sound. -/
  sound : r.Sound h
  /-- What has arrived was answered, is in hand, or waits. -/
  ledger : ∀ k e, r.held? k = some e → ∃ done,
    b.arrived e.poller = done ++ inHand w k ++ h.items e.poller ∧
      answers (.unknown k.signal) done = ((b.handed e.poller).map (fun n => n.reply), e.reported)
  /-- The books of a poller begin when it is attached. -/
  fresh : ∀ p, ¬ h.Attached p → b.arrived p = [] ∧ b.handed p = []
  /-- The visit under way is at a marked entry. -/
  current : ∀ x, stop? w = some x →
    ∃ e, r.held? x.visit.key = some e ∧ e.poller = x.poller ∧ e.inUse = true
  /-- The items in hand are of the kind that the key asks for. -/
  kind : ∀ x, stop? w = some x → ∀ item ∈ x.progress.inHand,
    item.isBlock = !x.visit.key.mode.isDataset
  /-- A flag that was up belongs to a sink that has stopped. -/
  flag : ∀ x, stop? w = some x → x.progress.sawFinished = true → h.IsStopped x.poller.sink
  /-- A pass that has seen only finished producers has left nothing behind. -/
  complete : ∀ v, w = some v → v.finished = true → ∀ k e, r.held? k = some e → e.inUse = true →
    (∃ x, v.current = some x ∧ x.visit.key = k) ∨ h.Exhausted e.poller

namespace Balanced

variable {r : Reconciler} {h h' : Hub} {b : Books}

/-- The books of a worker that has not begun. -/
lemma start (service : String) {h : Hub} (hw : h.WellFormed) :
    Balanced { service } h none ⟨fun _ => [], fun _ => []⟩ := by
  have hnone : ∀ k, ({ service } : Reconciler).held? k = none := by
    intro k
    unfold Reconciler.held?
    split <;> rfl
  refine ⟨Reconciler.sound_empty service hw, ?_, fun _ _ => ⟨rfl, rfl⟩, ?_, ?_, ?_, ?_⟩
  · intro k e he
    rw [hnone] at he
    cases he
  · intro x hx
    cases hx
  · intro x hx
    cases hx
  · intro x hx
    cases hx
  · intro v hv
    cases hv

/-- **What producers do keeps the books balanced.** -/
lemma evolves {w : Option Walk} (hb : Balanced r h w b) (e : h.Evolves h') :
    Balanced r h' w (b.note h h') := by
  have hw := hb.sound.wellFormed
  refine ⟨hb.sound.evolves e, ?_, ?_, hb.current, hb.kind, ?_, ?_⟩
  · intro k x hx
    obtain ⟨done, harrived, hanswers⟩ := hb.ledger k x hx
    refine ⟨done, ?_, hanswers⟩
    have hgrown := Hub.append_appended ((hb.sound.serves k x hx).items_grow e)
    change b.arrived x.poller ++ h.appended h' x.poller = _
    rw [harrived, List.append_assoc, hgrown]
  · intro p hp
    obtain ⟨harrived, hhanded⟩ := hb.fresh p fun ha => hp (e.attached ha)
    refine ⟨?_, hhanded⟩
    change b.arrived p ++ h.appended h' p = []
    rw [harrived, List.nil_append, Hub.appended, Hub.items_eq_nil (e.wellFormed hw) hp,
      List.drop_nil]
  · intro x hx hflag
    exact e.isStopped (hb.flag x hx hflag)
  · intro v hv hfin k x hx huse
    rcases hb.complete v hv hfin k x hx huse with hcur | hex
    · exact .inl hcur
    · exact .inr (hex.evolves hw e)

/-- Notes that are not about pollers keep the books balanced. -/
lemma count {w : Option Walk} (hb : Balanced r h w b) (f : Counters → Counters) :
    Balanced (r.count f) h w b :=
  ⟨hb.sound.count f, hb.ledger, hb.fresh, hb.current, hb.kind, hb.flag, hb.complete⟩

/-! ### The steps of a pass -/

/-- At the beginning of a pass nothing is marked, so nothing is claimed about what it has left
behind. -/
lemma beginWalk (hb : Balanced r h none b) (topics : List Topic) (flush : Bool)
    (todo : List Visit) :
    Balanced (r.begin h topics).reconciler h (some { flush, todo }) b := by
  refine ⟨hb.sound.begin topics, ?_, hb.fresh, ?_, ?_, ?_, ?_⟩
  · intro k e he
    rw [Reconciler.held?_begin] at he
    obtain ⟨e₀, he₀, rfl⟩ := Option.map_eq_some_iff.mp he
    exact hb.ledger k e₀ he₀
  · intro x hx
    cases hx
  · intro x hx
    cases hx
  · intro x hx
    cases hx
  · intro v _ _ k e he huse
    rw [Reconciler.held?_begin] at he
    obtain ⟨e₀, -, rfl⟩ := Option.map_eq_some_iff.mp he
    cases huse

/-- A poller that is opened has no books yet. -/
lemma enter {w : Walk} (hb : Balanced r h (some w) b) (hcur : w.current = none) {grant : Grant}
    (hg : grant.Lawful) {k : PollerKey} {p : PollerRef} (hok : grant h k = .ok (p, h')) :
    Balanced (r.enter k p) h' (some w) (b.note h h') := by
  obtain ⟨hev, hnew, -, hitems⟩ := hg h h' k p hb.sound.wellFormed hok
  have hall := hb.evolves hev
  have hstop : stop? (some w) = none := hcur
  have hhand : ∀ j, inHand (some w) j = [] := by
    intro j
    unfold inHand
    rw [hstop]
  obtain ⟨harrived, hhanded⟩ := hb.fresh p hnew
  have hempty : h'.items p = [] := by
    rw [hitems]
    exact Hub.items_eq_nil hb.sound.wellFormed hnew
  have hnote : b.note h h' = b := b.note_eq_self fun q => by rw [hitems]
  refine ⟨hb.sound.enter hg hok, ?_, hall.fresh, ?_, ?_, ?_, ?_⟩
  · intro j e he
    rw [Reconciler.held?_enter] at he
    by_cases hjk : j = k
    · rw [if_pos hjk] at he
      cases he
      refine ⟨[], ?_, ?_⟩
      · rw [hnote, harrived, hhand, hempty]
        rfl
      · rw [hnote, hhanded, hjk]
        rfl
    · rw [if_neg hjk] at he
      exact hall.ledger j e he
  · intro x hx
    rw [hstop] at hx
    cases hx
  · intro x hx
    rw [hstop] at hx
    cases hx
  · intro x hx
    rw [hstop] at hx
    cases hx
  · intro v hv hfin j e he huse
    rw [Reconciler.held?_enter] at he
    by_cases hjk : j = k
    · rw [if_pos hjk] at he
      cases he
      cases huse
    · rw [if_neg hjk] at he
      exact hall.complete v hv hfin j e he huse

/-- Opening the poller of a key, if it is missing and is to be opened. -/
lemma ensure {w : Walk} (hb : Balanced r h (some w) b) (hcur : w.current = none) {grant : Grant}
    (hg : grant.Lawful) (flush : Bool) (k : PollerKey) :
    let p := Pass.ensure grant flush { reconciler := r, hub := h } k
    Balanced p.reconciler p.hub (some w) (b.note h p.hub) := by
  intro p
  have hself : b.note h h = b := b.note_eq_self fun _ => le_rfl
  change Balanced (Pass.ensure grant flush { reconciler := r, hub := h } k).reconciler
    (Pass.ensure grant flush { reconciler := r, hub := h } k).hub (some w)
    (b.note h (Pass.ensure grant flush { reconciler := r, hub := h } k).hub)
  obtain ⟨-, heq⟩ | ⟨-, -, e, -, heq⟩ | ⟨-, -, q, h', hok, heq⟩ :=
    Pass.ensure_cases { reconciler := r, hub := h } grant flush k
  · rw [heq, hself]
    exact hb
  · rw [heq]
    dsimp only
    rw [hself]
    exact hb.count _
  · rw [heq]
    exact hb.enter hcur hg hok

/-- Marking the entry that the pass has come to. The entries visited before are as they were. -/
lemma mark {w : Walk} (hb : Balanced r h (some w) b) (hcur : w.current = none) (v : Visit)
    (rest : List Visit) :
    Balanced (r.mark v.key) h
      (some { w with
        todo := rest
        current := (r.held? v.key).map fun e => ⟨v, e.poller, .reading⟩ }) b := by
  have hstop : stop? (some w) = none := hcur
  have hhand : ∀ k, inHand (some w) k = [] := by
    intro k
    unfold inHand
    rw [hstop]
  have hheld := r.held?_mark v.key
  refine ⟨hb.sound.mark v.key, ?_, hb.fresh, ?_, ?_, ?_, ?_⟩
  · intro k e he
    have hnone : inHand (some { w with
        todo := rest
        current := (r.held? v.key).map fun e => (⟨v, e.poller, .reading⟩ : Stop) }) k = [] := by
      unfold inHand stop?
      cases r.held? v.key with
      | none => rfl
      | some x => simp [Progress.inHand]
    rw [hnone]
    rw [hheld] at he
    by_cases hk : k = v.key
    · rw [if_pos hk] at he
      obtain ⟨e₀, he₀, rfl⟩ := Option.map_eq_some_iff.mp he
      have hled := hb.ledger v.key e₀ he₀
      rw [hhand, ← hk] at hled
      exact hled
    · rw [if_neg hk] at he
      have hled := hb.ledger k e he
      rw [hhand] at hled
      exact hled
  · intro x hx
    obtain ⟨e, he, rfl⟩ := Option.map_eq_some_iff.mp hx
    refine ⟨{ e with inUse := true }, ?_, rfl, rfl⟩
    dsimp only
    rw [hheld, if_pos rfl, he]
    rfl
  · intro x hx item hitem
    obtain ⟨e, -, rfl⟩ := Option.map_eq_some_iff.mp hx
    cases hitem
  · intro x hx hflag
    obtain ⟨e, -, rfl⟩ := Option.map_eq_some_iff.mp hx
    cases hflag
  · intro u hu hfin k e he huse
    cases hu
    rw [hheld] at he
    by_cases hk : k = v.key
    · rw [if_pos hk] at he
      obtain ⟨e₀, he₀, rfl⟩ := Option.map_eq_some_iff.mp he
      exact .inl ⟨⟨v, e₀.poller, .reading⟩, by simp [he₀], hk.symm⟩
    · rw [if_neg hk] at he
      rcases hb.complete w rfl hfin k e he huse with ⟨x, hx, -⟩ | hex
      · rw [hcur] at hx
        cases hx
      · exact .inr hex

/-! ### The visit of a poller -/

section Visit

variable {w : Walk} {x : Stop}

/-- What is in hand at a visit. -/
lemma inHand_moveTo (w : Walk) (x : Stop) (progress : Progress) (k : PollerKey) :
    inHand (some (w.moveTo x progress)) k = if x.visit.key = k then progress.inHand else [] := rfl

/-- What is in hand at a visit, as the walk has it. -/
lemma inHand_of_current (hx : w.current = some x) (k : PollerKey) :
    inHand (some w) k = if x.visit.key = k then x.progress.inHand else [] := by
  have hstop : stop? (some w) = some x := hx
  unfold inHand
  rw [hstop]

/-- The poller of another key is not the one that is visited. -/
lemma poller_ne (hb : Balanced r h (some w) b) (hx : w.current = some x) {k : PollerKey} {e : Entry}
    (hk : x.visit.key ≠ k) (he : r.held? k = some e) : e.poller ≠ x.poller := by
  obtain ⟨e₀, he₀, hpol, -⟩ := hb.current x hx
  intro heq
  exact hk (hb.sound.distinct _ _ e₀ e he₀ he (hpol.trans heq.symm))

/-- In a pass that has seen only finished producers, the other pollers visited are exhausted. -/
lemma exhausted_of_ne (hb : Balanced r h (some w) b) (hx : w.current = some x)
    (hfin : w.finished = true) {k : PollerKey} {e : Entry} (hk : x.visit.key ≠ k)
    (he : r.held? k = some e) (huse : e.inUse = true) : h.Exhausted e.poller := by
  rcases hb.complete w rfl hfin k e he huse with ⟨y, hy, hkey⟩ | hex
  · rw [hx] at hy
    cases hy
    exact absurd hkey hk
  · exact hex

/-- A step that neither takes nor hands out anything keeps the books balanced, if the flag was read
right. -/
lemma turn (hb : Balanced r h (some w) b) (hx : w.current = some x) (progress : Progress)
    (hsame : progress.inHand = x.progress.inHand)
    (hflag : progress.sawFinished = true → h.IsStopped x.poller.sink) :
    Balanced r h (some (w.moveTo x progress)) b := by
  refine ⟨hb.sound, ?_, hb.fresh, ?_, ?_, ?_, ?_⟩
  · intro k e he
    have hled := hb.ledger k e he
    rw [inHand_of_current hx] at hled
    rw [inHand_moveTo, hsame]
    exact hled
  · intro y hy
    cases hy
    exact hb.current x hx
  · intro y hy item hitem
    cases hy
    dsimp only at hitem
    rw [hsame] at hitem
    exact hb.kind x hx item hitem
  · intro y hy hsaw
    cases hy
    exact hflag hsaw
  · intro v hv hfin k e he huse
    cases hv
    by_cases hk : x.visit.key = k
    · exact .inl ⟨_, rfl, hk⟩
    · exact .inr (hb.exhausted_of_ne hx hfin hk he huse)

/-- Taking the oldest item moves it from the queue into the hands of the pass. -/
lemma take (hb : Balanced r h (some w) b) (hx : w.current = some x) {finished : Bool}
    {batch : List Item} (hp : x.progress = .taking finished batch) {item : Item}
    (hpop : h.items x.poller = item :: h'.items x.poller) (hc : h.Consumed h' x.poller) :
    Balanced r h' (some (w.moveTo x (.taking finished (batch ++ [item])))) (b.note h h') := by
  obtain ⟨e₀, he₀, hpol, huse₀⟩ := hb.current x hx
  rw [b.note_eq_self (hc.length_le hpop)]
  refine ⟨hb.sound.consumed hc, ?_, ?_, ?_, ?_, ?_, ?_⟩
  · intro k e he
    obtain ⟨done, harrived, hanswers⟩ := hb.ledger k e he
    refine ⟨done, ?_, hanswers⟩
    rw [harrived, inHand_of_current hx, inHand_moveTo, hp]
    by_cases hk : x.visit.key = k
    · subst hk
      rw [he₀] at he
      cases he
      rw [if_pos rfl, if_pos rfl, hpol, hpop]
      simp [Progress.inHand]
    · rw [if_neg hk, if_neg hk, hc.others e.poller (hb.poller_ne hx hk he)]
  · intro p hfresh
    exact hb.fresh p fun ha => hfresh ((hc.attached p).mpr ha)
  · intro y hy
    cases hy
    exact ⟨e₀, he₀, hpol, huse₀⟩
  · intro y hy i hi
    cases hy
    rcases List.mem_append.mp hi with hi | hi
    · apply hb.kind x hx i
      rw [hp]
      exact hi
    · obtain rfl := List.mem_singleton.mp hi
      apply (hb.sound.serves _ _ he₀).isBlock_of_mem
      rw [hpol, hpop]
      exact List.mem_cons_self
  · intro y hy hsaw
    cases hy
    refine (hc.isStopped _).mpr (hb.flag x hx ?_)
    rw [hp]
    exact hsaw
  · intro v hv hfin k e he huse
    cases hv
    by_cases hk : x.visit.key = k
    · exact .inl ⟨_, rfl, hk⟩
    · obtain ⟨hstopped, hnone⟩ := hb.exhausted_of_ne hx hfin hk he huse
      have hother := hc.others e.poller (hb.poller_ne hx hk he)
      exact .inr ⟨(hc.isStopped _).mpr hstopped, hother.trans hnone⟩

/-- **A visit ends when its queue is found empty.** If the flag was up before, the poller is
exhausted: its sink had stopped by then. -/
lemma leave (hb : Balanced r h (some w) b) (hx : w.current = some x) {finished : Bool}
    (hp : x.progress = .taking finished []) (hempty : h.items x.poller = []) :
    Balanced r h (some { w with finished := w.finished && finished, current := none }) b := by
  obtain ⟨e₀, he₀, hpol, -⟩ := hb.current x hx
  refine ⟨hb.sound, ?_, hb.fresh, ?_, ?_, ?_, ?_⟩
  · intro k e he
    have hled := hb.ledger k e he
    rw [inHand_of_current hx, hp] at hled
    have hnone : (if x.visit.key = k then (Progress.taking finished []).inHand else []) = [] := by
      split <;> rfl
    rw [hnone] at hled
    exact hled
  · intro y hy
    cases hy
  · intro y hy
    cases hy
  · intro y hy
    cases hy
  · intro v hv hfin k e he huse
    cases hv
    simp only [Bool.and_eq_true] at hfin
    right
    by_cases hk : x.visit.key = k
    · subst hk
      rw [he₀] at he
      cases he
      rw [hpol]
      refine ⟨hb.flag x hx ?_, hempty⟩
      rw [hp]
      exact hfin.2
    · exact hb.exhausted_of_ne hx hfin.1 hk he huse

/-- **Handing out an item** answers it and notes what it reports. -/
lemma hand (hb : Balanced r h (some w) b) (hx : w.current = some x) {finished : Bool} {item : Item}
    {left : List Item} (hp : x.progress = .handing finished (item :: left)) {e₀ : Entry}
    (he₀ : r.held? x.visit.key = some e₀) (n : Notification)
    (hn : n.reply = (answer e₀.reported item).1) :
    Balanced (r.report x.visit.key (answer e₀.reported item).2) h
      (some (w.moveTo x (.handing finished left))) (b.enter x.poller n) := by
  obtain ⟨e₁, he₁, hpol, huse₁⟩ := hb.current x hx
  rw [he₀] at he₁
  cases he₁
  have hkind : item.isBlock = !x.visit.key.mode.isDataset := by
    apply hb.kind x hx item
    rw [hp]
    exact List.mem_cons_self
  have hreport : x.visit.key.mode.isDataset = true →
      (answer e₀.reported item).2 = e₀.reported := by
    intro hk
    exact answer_snd_of_isDataset _ hk hkind
  have hheld := fun j => r.held?_report x.visit.key j he₀ (answer e₀.reported item).2 hreport
  refine ⟨hb.sound.report he₀ _ hreport, ?_, ?_, ?_, ?_, ?_, ?_⟩
  · intro k e he
    rw [hheld] at he
    by_cases hk : x.visit.key = k
    · subst hk
      rw [if_pos rfl] at he
      cases he
      obtain ⟨done, harrived, hanswers⟩ := hb.ledger _ e₀ he₀
      rw [inHand_of_current hx, if_pos rfl, hp] at harrived
      refine ⟨done ++ [item], ?_, ?_⟩
      · rw [inHand_moveTo, if_pos rfl]
        change b.arrived e₀.poller = _
        rw [harrived]
        simp [Progress.inHand]
      · rw [answers_append, hanswers]
        dsimp only [Books.enter]
        rw [if_pos hpol, List.map_append, List.map_singleton, hn]
        rfl
    · rw [if_neg (fun hkx => hk hkx.symm)] at he
      obtain ⟨done, harrived, hanswers⟩ := hb.ledger k e he
      rw [inHand_of_current hx, if_neg hk] at harrived
      refine ⟨done, ?_, ?_⟩
      · rw [inHand_moveTo, if_neg hk]
        exact harrived
      · rw [hanswers]
        dsimp only [Books.enter]
        rw [if_neg (hb.poller_ne hx hk he)]
  · intro p hfresh
    have hother : p ≠ x.poller := by
      rintro rfl
      rw [← hpol] at hfresh
      exact hfresh ((hb.sound.serves _ _ he₀).attached hb.sound.wellFormed)
    dsimp only [Books.enter]
    rw [if_neg hother]
    exact hb.fresh p hfresh
  · intro y hy
    cases hy
    refine ⟨{ e₀ with reported := (answer e₀.reported item).2 }, ?_, hpol, huse₁⟩
    dsimp only
    rw [hheld, if_pos rfl]
  · intro y hy i hi
    cases hy
    apply hb.kind x hx i
    rw [hp]
    exact List.mem_cons_of_mem _ hi
  · intro y hy hsaw
    cases hy
    apply hb.flag x hx
    rw [hp]
    exact hsaw
  · intro v hv hfin k e he huse
    cases hv
    by_cases hk : x.visit.key = k
    · exact .inl ⟨_, rfl, hk⟩
    · rw [hheld, if_neg (fun hkx => hk hkx.symm)] at he
      exact .inr (hb.exhausted_of_ne hx hfin hk he huse)

end Visit

/-! ### Letting go -/

/-- Letting go of pollers appends nothing. -/
lemma note_releaseAll (b : Books) (ps : List PollerRef) (h : Hub) :
    b.note h (ps.foldl Hub.release h) = b := by
  apply b.note_eq_self
  intro p
  rw [Hub.items_releaseAll]

/-- **The sweep at the end of a pass.** If the pass has seen only finished producers, every poller
that is left is exhausted. -/
lemma evict {w : Walk} (hb : Balanced r h (some w) b) (hcur : w.current = none) :
    Balanced (r.evict h).1 (r.evict h).2 none b ∧
      (w.finished = true → ∀ k e, (r.evict h).1.held? k = some e →
        (r.evict h).2.Exhausted e.poller) := by
  have htouched := h.touched_releaseAll r.stale
  have hitems : ∀ p, (r.evict h).2.items p = h.items p := fun p => h.items_releaseAll r.stale p
  have hkept : ∀ k e, (r.evict h).1.held? k = some e → r.held? k = some e ∧ e.inUse = true := by
    intro k e he
    rw [Reconciler.held?_evict, Option.filter_eq_some_iff] at he
    exact he
  have hstop : stop? (some w) = none := hcur
  refine ⟨⟨hb.sound.evict, ?_, ?_, ?_, ?_, ?_, ?_⟩, ?_⟩
  · intro k e he
    have hled := hb.ledger k e (hkept k e he).1
    unfold inHand at hled
    rw [hstop] at hled
    rw [hitems]
    exact hled
  · intro p hp
    exact hb.fresh p fun ha => hp ((htouched.attached p).mpr ha)
  · intro x hx
    cases hx
  · intro x hx
    cases hx
  · intro x hx
    cases hx
  · intro v hv
    cases hv
  · intro hfin k e he
    obtain ⟨hin, huse⟩ := hkept k e he
    rcases hb.complete w rfl hfin k e hin huse with ⟨x, hx, -⟩ | hex
    · rw [hcur] at hx
      cases hx
    · exact ⟨(htouched.isStopped _).mpr hex.1, (hitems _).trans hex.2⟩

/-- Letting go of all pollers closes all books. -/
lemma clear (hb : Balanced r h none b) : Balanced (r.clear h).1 (r.clear h).2 none b := by
  have htouched := h.touched_releaseAll r.pollers
  refine ⟨hb.sound.clear, ?_, ?_, ?_, ?_, ?_, ?_⟩
  · intro k e he
    rw [Reconciler.held?_clear] at he
    cases he
  · intro p hp
    exact hb.fresh p fun ha => hp ((htouched.attached p).mpr ha)
  · intro x hx
    cases hx
  · intro x hx
    cases hx
  · intro x hx
    cases hx
  · intro v hv
    cases hv

end Balanced

end Daq

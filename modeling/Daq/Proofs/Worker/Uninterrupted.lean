import Daq.Proofs.Worker.Scene

set_option autoImplicit false

/-!
# Passes without interruption

A pass that is taken step by step, with nobody acting in between, is the pass that a worker makes in
one step. So whatever holds of all moves of a scene holds of the worker as it runs.

## Main definitions

* `Daq.Hub.skip` — the hub without the oldest items of a poller.
* `Daq.Scene.Leads` — where the lifecycle thread gets on its own.
* `Daq.Scene.between` — a scene in the course of a pass, between two visits.

## Main results

* `Daq.Scene.leads_visit` — a visit, step by step.
* `Daq.Station.exists_iterate_advance` — a step of the worker is some number of steps of a scene.
-/

namespace Daq

/-! ### Taking several items -/

namespace Outlet

/-- The outlet without its oldest items. -/
def skip (n : Nat) : Outlet → Outlet
  | .stream q => .stream { q with items := q.items.drop n }
  | .captures o q => .captures o { q with items := q.items.drop n }

/-- Skipping nothing. -/
lemma skip_zero (o : Outlet) : o.skip 0 = o := by cases o <;> rfl

/-- Skipping items one after the other. -/
lemma skip_skip (o : Outlet) (m n : Nat) : (o.skip m).skip n = o.skip (m + n) := by
  cases o with
  | stream q => simp only [skip, List.drop_drop]
  | captures w q => simp only [skip, List.drop_drop]

/-- Skipping takes from the front. -/
lemma items_skip (o : Outlet) (n : Nat) : (o.skip n).items = o.items.drop n := by
  cases o with
  | stream q => exact List.map_drop
  | captures w q => exact List.map_drop

/-- Emptying after skipping is emptying. -/
lemma emptied_skip (o : Outlet) (n : Nat) : (o.skip n).emptied = o.emptied := by cases o <;> rfl

/-- Emptying what is empty changes nothing. -/
lemma emptied_of_nil {o : Outlet} (h : o.items = []) : o.emptied = o := by
  cases o with
  | stream q =>
    have hq : q.items = [] := List.map_eq_nil_iff.mp h
    rw [emptied, ← hq]
  | captures w q =>
    have hq : q.items = [] := List.map_eq_nil_iff.mp h
    rw [emptied, ← hq]

/-- The oldest item, and the outlet without it. -/
lemma pop?_eq_skip {o : Outlet} {x : Item} {rest : List Item} (h : o.items = x :: rest) :
    o.pop? = some (x, o.skip 1) := by
  cases o with
  | stream q =>
    obtain ⟨capacity, items, dropped, finished⟩ := q
    cases items with
    | nil => cases h
    | cons b bs =>
      obtain ⟨rfl, -⟩ := List.cons.inj h
      rfl
  | captures w q =>
    obtain ⟨capacity, items, dropped, finished⟩ := q
    cases items with
    | nil => cases h
    | cons c cs =>
      obtain ⟨rfl, -⟩ := List.cons.inj h
      rfl

end Outlet

namespace Hub

/-- Changes of the outlet of one tap, one after the other. -/
lemma modifyTap_modifyTap (h : Hub) (p : PollerRef) (f g : Outlet → Outlet) :
    (h.modifyTap p fun t => { t with outlet := f t.outlet }).modifyTap p
        (fun t => { t with outlet := g t.outlet }) =
      h.modifyTap p fun t => { t with outlet := g (f t.outlet) } := by
  unfold modifyTap modify
  simp only [List.modify_modify_eq]
  congr 2
  funext s
  simp only [Function.comp_apply, Sink.modifyTap, List.map_map]
  congr 1
  apply List.map_congr_left
  intro t _
  by_cases ht : t.id = p.tap <;> simp [ht]

/-- The hub without the oldest items of a poller. -/
def skip (h : Hub) (p : PollerRef) (n : Nat) : Hub :=
  h.modifyTap p fun t => { t with outlet := t.outlet.skip n }

section Skip

variable (h : Hub) (p : PollerRef)

/-- Skipping nothing. -/
lemma skip_zero : h.skip p 0 = h := by
  have hid : (fun s : Sink => s.modifyTap p.tap fun t => { t with outlet := t.outlet.skip 0 }) =
      id := by
    funext s
    unfold Sink.modifyTap
    simp [Outlet.skip_zero]
  unfold skip modifyTap modify
  rw [hid, List.modify_id]

/-- Skipping items one after the other. -/
lemma skip_skip (m n : Nat) : (h.skip p m).skip p n = h.skip p (m + n) := by
  unfold skip
  rw [modifyTap_modifyTap]
  simp only [Outlet.skip_skip]

/-- Emptying after skipping is emptying. -/
lemma emptied_skip (n : Nat) : (h.skip p n).emptied p = h.emptied p := by
  unfold skip emptied
  rw [modifyTap_modifyTap]
  simp only [Outlet.emptied_skip]

/-- Skipping takes from the front. -/
lemma items_skip (n : Nat) : (h.skip p n).items p = (h.items p).drop n := by
  unfold skip items
  rw [tap?_modifyTap]
  · rw [if_pos rfl]
    cases h.tap? p with
    | none => simp
    | some t => exact t.outlet.items_skip n
  · intro t
    rfl

/-- Skipping only consumes items. -/
lemma consumed_skip (n : Nat) : h.Consumed (h.skip p n) p := by
  refine h.consumed_modifyTap p (Outlet.skip n) ?_ ?_
  · intro t _
    cases t.outlet <;> rfl
  · intro t _
    cases t.outlet <;> rfl

end Skip

variable {h : Hub} {p : PollerRef}

/-- Emptying what is empty changes nothing. -/
lemma emptied_of_nil (hw : h.WellFormed) {t : Tap} (ht : h.tap? p = some t)
    (hnil : h.items p = []) : h.emptied p = h := by
  have hout : t.outlet.items = [] := by
    rw [items, ht] at hnil
    exact hnil
  calc h.emptied p = h.skip p 0 := by
        apply modifyTap_congr hw ht
        rw [Outlet.emptied_of_nil hout, Outlet.skip_zero]
    _ = h := h.skip_zero p

/-- The oldest item, and the hub without it. -/
lemma pop?_eq_skip (hw : h.WellFormed) {x : Item} {rest : List Item} (hx : h.items p = x :: rest) :
    h.pop? p = some (x, h.skip p 1) := by
  cases ht : h.tap? p with
  | none =>
    rw [items, ht] at hx
    cases hx
  | some t =>
    have hout : t.outlet.items = x :: rest := by
      rw [items, ht] at hx
      exact hx
    have hskip : h.modifyTap p (fun u => { u with outlet := t.outlet.skip 1 }) = h.skip p 1 :=
      modifyTap_congr hw ht rfl
    rw [pop?, ht, Option.bind_some, Outlet.pop?_eq_skip hout, Option.map_some, hskip]

/-- Nothing is taken from an empty queue. -/
lemma pop?_of_nil (hnil : h.items p = []) : h.pop? p = none := by
  rcases h.pop?_consumed p with ⟨-, hnone⟩ | ⟨item, h', -, hitem, -⟩
  · exact hnone
  · rw [hnil] at hitem
    cases hitem

end Hub

/-! ### Reporting several items -/

namespace Reconciler

variable {r : Reconciler} {k : PollerKey} {e : Entry}

/-- A key without an entry is not marked. -/
lemma mark_of_none (he : r.held? k = none) : r.mark k = r := by
  unfold held? at he
  unfold mark
  split
  · rename_i hk
    rw [if_pos hk] at he
    rw [Option.map_eq_none_iff.mp he]
  · rename_i hk
    rw [if_neg hk] at he
    rw [Option.map_eq_none_iff.mp he]

/-- Reporting what was reported changes nothing. -/
lemma report_reported (he : r.held? k = some e) : r.report k e.reported = r := by
  unfold report
  split
  · rfl
  · rename_i hk
    rw [held?, if_neg hk] at he
    obtain ⟨s, hs, rfl⟩ := Option.map_eq_some_iff.mp he
    rw [hs]
    have hsame : r.streams.insert k { s with reported := s.view.reported } = r.streams :=
      r.streams.insert_get? hs
    dsimp only
    rw [hsame]

/-- The later of two reports counts, and counting in between does not matter. -/
lemma report_count_report (he : r.held? k = some e) (d d' : Descriptor) (f : Counters → Counters) :
    (((r.report k d).count f).report k d') = (r.report k d').count f := by
  unfold report
  split
  · rfl
  · rename_i hk
    rw [held?, if_neg hk] at he
    obtain ⟨s, hs, rfl⟩ := Option.map_eq_some_iff.mp he
    simp only [hs, count, Table.get?_insert, if_true, Table.insert_insert]

/-- Notifications are counted one after the other or together. -/
lemma count_add (r : Reconciler) {a b c : Nat} (h : a + b = c) :
    ((r.count fun n => { n with notifications := n.notifications + a }).count fun n =>
        { n with notifications := n.notifications + b }) =
      r.count fun n => { n with notifications := n.notifications + c } := by
  unfold count
  simp only [Nat.add_assoc, h]

end Reconciler

/-- Notifications are delivered one after the other. -/
lemma Broker.notifyAll_append (b : Broker) (service : String) (ns ms : List Notification) :
    b.notifyAll service (ns ++ ms) = (b.notifyAll service ns).notifyAll service ms :=
  List.foldl_append

/-- What opening a poller does depends on tables and sinks, and changes nothing else. -/
lemma Pass.ensure_frame (p : Pass) (grant : Grant) (flush : Bool) (k : PollerKey) :
    let q := Pass.ensure grant flush { reconciler := p.reconciler, hub := p.hub } k
    q.reconciler = (p.ensure grant flush k).reconciler ∧ q.hub = (p.ensure grant flush k).hub ∧
      p.finished = (p.ensure grant flush k).finished ∧
      p.notifications = (p.ensure grant flush k).notifications := by
  intro q
  simp only [q, Pass.ensure]
  split
  · exact ⟨rfl, rfl, rfl, rfl⟩
  · cases grant p.hub k <;> exact ⟨rfl, rfl, rfl, rfl⟩

/-! ### A visit, step by step -/

namespace Scene

variable {γ : Type} [FlowGraph γ]

/-- The lifecycle thread gets from one scene to the other if nobody else acts. -/
def Leads (s t : Scene γ) : Prop := ∃ n, advance^[n] s = t

/-- Staying where one is. -/
lemma Leads.refl (s : Scene γ) : s.Leads s := ⟨0, rfl⟩

/-- One way after the other. -/
lemma Leads.trans {s t u : Scene γ} (h : s.Leads t) (h' : t.Leads u) : s.Leads u := by
  obtain ⟨m, rfl⟩ := h
  obtain ⟨n, rfl⟩ := h'
  exact ⟨n + m, Function.iterate_add_apply advance n m s⟩

/-- One step. -/
lemma Leads.of_advance {s t : Scene γ} (h : s.advance = t) : s.Leads t := ⟨1, h⟩

/-- A scene in the course of a visit. -/
def amid (s : Station γ) (w : Walk) (x : Stop) (r : Reconciler) (h : Hub) (b : Broker)
    (progress : Progress) : Scene γ where
  station := { s with hub := h, broker := b, worker := { s.worker with reconciler := r } }
  walk := some { w with current := some { x with progress } }

section Visit

variable {s : Station γ} {w : Walk} {x : Stop} {r : Reconciler} {h : Hub} {b : Broker}
  (finished : Bool)

/-- A batch is taken item by item, as far as there is room. -/
lemma leads_take (hw : h.WellFormed) (n : Nat) (batch : List Item)
    (hroom : batch.length + n ≤ batchSize) (hn : n ≤ (h.items x.poller).length) :
    (amid s w x r h b (.taking finished batch)).Leads
      (amid s w x r (h.skip x.poller n) b
        (.taking finished (batch ++ (h.items x.poller).take n))) := by
  induction n generalizing h batch with
  | zero =>
    rw [Hub.skip_zero, List.take_zero, List.append_nil]
    exact .refl _
  | succ n ih =>
    cases hitems : h.items x.poller with
    | nil =>
      rw [hitems] at hn
      cases hn
    | cons item rest =>
      have hnext : (h.skip x.poller 1).items x.poller = rest := by
        rw [Hub.items_skip, hitems]
        rfl
      have hstep : (amid s w x r h b (.taking finished batch)).advance =
          amid s w x r (h.skip x.poller 1) b (.taking finished (batch ++ [item])) := by
        have hpop : (if batch.length < batchSize then h.pop? x.poller else none) =
            some (item, h.skip x.poller 1) := by
          rw [if_pos (by omega), Hub.pop?_eq_skip hw hitems]
        simp only [advance, amid, walkOn, proceed, hub, hpop]
        rfl
      have hrest := ih ((h.consumed_skip x.poller 1).wellFormed hw) (batch ++ [item])
        (by rw [List.length_append, List.length_singleton]; omega)
        (by rw [hnext]; rw [hitems, List.length_cons] at hn; omega)
      rw [hnext, Hub.skip_skip, Nat.add_comm 1 n, List.append_assoc, List.singleton_append] at hrest
      rw [List.take_succ_cons]
      exact (Leads.of_advance hstep).trans hrest

/-- A batch is handed out item by item. -/
lemma leads_hand {e : Entry} (he : r.held? x.visit.key = some e) (left : List Item)
    (hkind : ∀ item ∈ left, item.isBlock = !x.visit.key.mode.isDataset) :
    (amid s w x r h b (.handing finished left)).Leads
      (amid s w x
        ((r.report x.visit.key (answers e.reported left).2).count fun n =>
          { n with notifications := n.notifications + left.length })
        h
        (b.notifyAll r.service ((answers e.reported left).1.map fun reply => ⟨x.visit.filter, reply⟩))
        (.handing finished [])) := by
  induction left generalizing r b e with
  | nil =>
    simp only [answers, Reconciler.report_reported he]
    exact .refl _
  | cons item left ih =>
    have hcapture : x.visit.key.mode.isDataset = true → (answer e.reported item).2 = e.reported := by
      intro hk
      exact answer_snd_of_isDataset _ hk (hkind item List.mem_cons_self)
    have hservice := (r.report_counters x.visit.key (answer e.reported item).2).2
    have hheld : ((r.report x.visit.key (answer e.reported item).2).count fun n =>
        { n with notifications := n.notifications + 1 }).held? x.visit.key =
          some { e with reported := (answer e.reported item).2 } := by
      rw [Reconciler.held?_count, r.held?_report _ _ he _ hcapture, if_pos rfl]
    have hstep : (amid s w x r h b (.handing finished (item :: left))).advance =
        amid s w x
          ((r.report x.visit.key (answer e.reported item).2).count fun n =>
            { n with notifications := n.notifications + 1 })
          h (b.notify r.service ⟨x.visit.filter, (answer e.reported item).1⟩)
          (.handing finished left) := by
      simp only [advance, amid, walkOn, proceed, hand, reconciler, he]
      rw [← hservice]
      rfl
    have hrest := ih (b := b.notify r.service ⟨x.visit.filter, (answer e.reported item).1⟩) hheld
      fun y hy => hkind y (List.mem_cons_of_mem _ hy)
    apply (Leads.of_advance hstep).trans
    have hsame : ((r.report x.visit.key (answer e.reported item).2).count fun n =>
        { n with notifications := n.notifications + 1 }).service = r.service := hservice
    rw [Reconciler.report_count_report he, hsame,
      Reconciler.count_add _ (Nat.add_comm 1 left.length)] at hrest
    exact hrest

/-- A batch is taken and handed out. -/
lemma leads_batch {e : Entry} (he : r.held? x.visit.key = some e) (hw : h.WellFormed)
    (hs : h.Serves x.visit.key x.poller) {m : Nat} (hpos : 0 < m)
    (hm : m = min batchSize (h.items x.poller).length) :
    let batch := (h.items x.poller).take m
    (amid s w x r h b (.taking finished [])).Leads
      (amid s w x
        ((r.report x.visit.key (answers e.reported batch).2).count fun n =>
          { n with notifications := n.notifications + m })
        (h.skip x.poller m)
        (b.notifyAll r.service ((answers e.reported batch).1.map fun reply => ⟨x.visit.filter, reply⟩))
        (.taking finished [])) := by
  intro batch
  have htaken : batch.length = m := by
    rw [List.length_take]
    omega
  have hfull : (amid s w x r (h.skip x.poller m) b (.taking finished batch)).advance =
      amid s w x r (h.skip x.poller m) b (.handing finished batch) := by
    -- The batch is full, or the queue is used up.
    have hpop : (if batch.length < batchSize then (h.skip x.poller m).pop? x.poller else none) =
        none := by
      split
      · apply Hub.pop?_of_nil
        rw [Hub.items_skip]
        apply List.drop_eq_nil_of_le
        omega
      · rfl
    have hsome : batch.isEmpty = false := by
      rw [← Bool.not_eq_true, List.isEmpty_iff, ← List.length_eq_zero_iff]
      omega
    simp only [advance, amid, walkOn, proceed, hub, hpop, hsome]
    rfl
  have htake := leads_take (s := s) (w := w) (x := x) (r := r) (b := b) finished hw m []
    (by rw [List.length_nil]; omega) (by omega)
  have hhand := leads_hand (s := s) (w := w) (x := x) (h := h.skip x.poller m) (b := b)
    finished he batch fun y hy => hs.isBlock_of_mem (List.mem_of_mem_take hy)
  rw [htaken] at hhand
  exact ((htake.trans (Leads.of_advance hfull)).trans hhand).trans (Leads.of_advance rfl)

/-- A visit ends when its queue is empty. -/
lemma leads_leave (hnil : h.items x.poller = []) :
    (amid s w x r h b (.taking finished [])).Leads
      { station := { s with hub := h, broker := b, worker := { s.worker with reconciler := r } }
        walk := some { w with finished := w.finished && finished, current := none } } := by
  apply Leads.of_advance
  have hpop : (if ([] : List Item).length < batchSize then h.pop? x.poller else none) = none := by
    rw [Hub.pop?_of_nil hnil]
    exact ite_self _
  simp only [advance, amid, walkOn, proceed, hub, hpop]
  rfl

/-- **A visit, step by step**, answers all items of the queue and empties it.

**Proof sketch.** Strong induction on the length of the queue: if something waits, a batch is taken and
handed out, which leaves a shorter queue; if nothing waits, the visit ends. -/
lemma leads_collect {e : Entry} (he : r.held? x.visit.key = some e) (hw : h.WellFormed)
    (hs : h.Serves x.visit.key x.poller) :
    let rs := answers e.reported (h.items x.poller)
    (amid s w x r h b (.taking finished [])).Leads
      { station :=
          { s with
            hub := h.emptied x.poller
            broker := b.notifyAll r.service (rs.1.map fun reply => ⟨x.visit.filter, reply⟩)
            worker := { s.worker with
              reconciler := (r.report x.visit.key rs.2).count fun n =>
                { n with notifications := n.notifications + rs.1.length } } }
        walk := some { w with finished := w.finished && finished, current := none } } := by
  dsimp only
  rw [length_answers]
  generalize hlength : (h.items x.poller).length = n
  induction n using Nat.strong_induction_on generalizing r h b e with
  | _ n ih =>
    obtain ⟨t, ht, -⟩ := id hs
    rcases Nat.eq_zero_or_pos n with hzero | hpos
    · have hnil : h.items x.poller = [] := List.length_eq_zero_iff.mp (hlength.trans hzero)
      rw [hnil, hzero, Hub.emptied_of_nil hw ht hnil]
      simp only [answers, Reconciler.report_reported he]
      exact leads_leave finished hnil
    · have hbatch : 0 < batchSize := by decide
      obtain ⟨m, hm⟩ : ∃ m, m = min batchSize n := ⟨_, rfl⟩
      have hfirst := leads_batch (s := s) (w := w) (b := b) (m := m) finished he hw hs
        (by omega) (by rw [hlength]; exact hm)
      have hc := h.consumed_skip x.poller m
      have hleft : ((h.skip x.poller m).items x.poller).length = n - m := by
        rw [Hub.items_skip, List.length_drop, hlength]
      have hcapture : x.visit.key.mode.isDataset = true →
          (answers e.reported ((h.items x.poller).take m)).2 = e.reported := by
        intro hk
        exact answers_snd_of_isDataset _ hk fun _ hy => hs.isBlock_of_mem (List.mem_of_mem_take hy)
      have hheld : ((r.report x.visit.key (answers e.reported ((h.items x.poller).take m)).2).count
          fun c => { c with notifications := c.notifications + m }).held? x.visit.key =
            some { e with reported := (answers e.reported ((h.items x.poller).take m)).2 } := by
        rw [Reconciler.held?_count, r.held?_report _ _ he _ hcapture, if_pos rfl]
      have hrest := ih (n - m) (by omega)
        (b := b.notifyAll r.service ((answers e.reported ((h.items x.poller).take m)).1.map
          fun reply => ⟨x.visit.filter, reply⟩))
        hheld (hc.wellFormed hw) (hc.serves _ _ hs) hleft
      apply hfirst.trans
      have hsplit := answers_append e.reported ((h.items x.poller).take m)
        ((h.items x.poller).drop m)
      rw [List.take_append_drop] at hsplit
      have hservice : ∀ (d : Descriptor) (f : Counters → Counters),
          ((r.report x.visit.key d).count f).service = r.service :=
        fun d _ => (r.report_counters x.visit.key d).2
      rw [Hub.items_skip, Hub.emptied_skip, Reconciler.report_count_report he, hservice,
        Reconciler.count_add _ (by omega : m + (n - m) = n), ← Broker.notifyAll_append,
        ← List.map_append] at hrest
      rw [hsplit]
      exact hrest

end Visit

/-! ### A pass, step by step -/

/-- A scene in the course of a pass, between two visits. -/
def between (s : Station γ) (flush : Bool) (todo : List Visit) (p : Pass) : Scene γ where
  station :=
    { s with
      hub := p.hub
      broker := s.broker.notifyAll s.worker.reconciler.service p.notifications
      worker := { s.worker with reconciler := p.reconciler } }
  walk := some { flush, finished := p.finished, todo }

section Pass

variable {s : Station γ} {p : Pass}

/-- **A visit of a pass, step by step.** -/
theorem leads_visit (hs : p.reconciler.Sound p.hub)
    (hservice : p.reconciler.service = s.worker.reconciler.service) (flush : Bool) (v : Visit)
    (rest : List Visit) :
    (between s flush (v :: rest) p).Leads
      (between s flush rest (p.visit Hub.serve flush v)) := by
  have hsound := hs.ensure Hub.lawful_serve flush v.key
  have hkeeps := (p.service_ensure Hub.serve flush v.key).trans hservice
  obtain ⟨hreconciler, hhub, hfinished, hnotifications⟩ := p.ensure_frame Hub.serve flush v.key
  unfold Pass.visit
  generalize p.ensure Hub.serve flush v.key = q at *
  have happroach : (between s flush (v :: rest) p).advance =
      { station :=
          { s with
            hub := q.hub
            broker := s.broker.notifyAll s.worker.reconciler.service p.notifications
            worker := { s.worker with reconciler := q.reconciler.mark v.key } }
        walk := some
          { flush
            finished := p.finished
            current := (q.reconciler.held? v.key).map fun e => ⟨v, e.poller, .reading⟩
            todo := rest } } := by
    rw [← hreconciler, ← hhub]
    rfl
  apply (Leads.of_advance happroach).trans
  cases he : q.reconciler.held? v.key with
  | none =>
    rw [Pass.serve_eq_self he, Reconciler.mark_of_none he, hfinished, hnotifications]
    exact .refl _
  | some e =>
    have hmarked := q.reconciler.held?_mark_of_some v.key v.key he
    rw [if_pos rfl] at hmarked
    have hmark : (q.reconciler.mark v.key).service = s.worker.reconciler.service :=
      (q.reconciler.mark_counters v.key).2.trans hkeeps
    have hcollect := leads_collect (s := s)
      (w := { flush, finished := p.finished, todo := rest })
      (x := ⟨v, e.poller, .reading⟩)
      (b := s.broker.notifyAll s.worker.reconciler.service p.notifications)
      (q.hub.finished e.poller) hmarked hsound.wellFormed (hsound.serves _ _ he)
    dsimp only at hcollect
    rw [hmark, ← Broker.notifyAll_append, hfinished, hnotifications] at hcollect
    rw [Pass.serve_eq hsound he, hfinished, hnotifications]
    exact (Leads.of_advance rfl).trans hcollect

/-- Several visits of a pass, step by step. -/
lemma leads_visits (hs : p.reconciler.Sound p.hub)
    (hservice : p.reconciler.service = s.worker.reconciler.service) (flush : Bool)
    (todo : List Visit) :
    (between s flush todo p).Leads
      (between s flush [] (todo.foldl (Pass.visit Hub.serve flush) p)) := by
  induction todo generalizing p with
  | nil => exact .refl _
  | cons v rest ih =>
    have hnext := ih (hs.visit Hub.lawful_serve flush v)
      ((p.service_visit Hub.serve flush v).trans hservice)
    exact (leads_visit hs hservice flush v rest).trans hnext

end Pass

end Scene

/-- **A step of the worker is some number of steps of a scene**, if nobody acts in between.

**Proof sketch.** Outside of passes they are the same. A pass begins, makes its visits one after the
other, and ends with the sweep. -/
theorem Station.exists_iterate_advance {γ : Type} [FlowGraph γ] (s : Station γ)
    (hs : s.worker.reconciler.Sound s.hub) :
    ∃ n, Scene.advance^[n] { station := s } = { station := s.step } := by
  change Scene.Leads _ _
  cases hdue : s.pass? with
  | none =>
    refine .of_advance ?_
    simp only [Scene.advance, hdue]
  | some flush =>
    have hbegin : ({ station := s } : Scene γ).advance =
        Scene.between s flush (visits s.worker.reconciler.service s.broker.active)
          (s.worker.reconciler.begin s.hub s.broker.active) := by
      simp only [Scene.advance, hdue]
      rfl
    have hvisits := Scene.leads_visits (s := s) (hs.begin s.broker.active) rfl flush
      (visits s.worker.reconciler.service s.broker.active)
    refine (Scene.Leads.of_advance hbegin).trans (hvisits.trans (.of_advance ?_))
    -- What is left is the sweep and the stage after it.
    have hend : ∀ p : Pass, (Scene.between s flush [] p).advance =
        { station :=
            { s with
              hub := (p.reconciler.evict p.hub).2
              broker := s.broker.notifyAll s.worker.reconciler.service p.notifications
              worker := { s.worker with
                reconciler := (p.reconciler.evict p.hub).1
                stage := s.worker.stage.afterPass p.finished } } } := fun _ => rfl
    rw [hend]
    unfold pass? at hdue
    split at hdue
    · rename_i stop hout hstage
      split at hdue
      · rename_i hstate
        cases hdue
        have hstep : s.step = (s.reconcile false).2.withWorker fun w => w.enter (.passed stop) := by
          unfold step stepBegun
          rw [hout, hstage]
          dsimp only
          rw [hstate]
        rw [hstep, hstage]
        rfl
      · cases hdue
    · rename_i aim passes hout hstage
      cases hdue
      have hstep : s.step = s.stepFlushing aim passes := by
        unfold step
        rw [hout, hstage]
      rw [hstep, hstage]
      rfl
    · cases hdue

end Daq

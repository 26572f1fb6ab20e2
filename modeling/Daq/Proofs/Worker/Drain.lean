import Daq.Proofs.Worker.Books
import Daq.Proofs.Worker.Fates

set_option autoImplicit false

/-!
# Nothing is lost in a drain

A worker drains a graph by flush passes until a pass has seen only finished producers. Then every
poller that is left has handed out all that its queue has ever accepted, and its queue will accept
nothing more; only now are the pollers let go and the execution thread is joined. This holds
whatever the execution thread and the clients do in between, and at whatever point of a pass they
do it.

## Main definitions

* `Daq.Hub.Quiet` — the queues of stopped sinks do not become longer.
* `Daq.Chronicle` — a scene with books on its pollers.
* `Daq.Chronicle.Faithful` — the books balance, and a drain that is over has left nothing behind.

## Main results

* `Daq.Chronicle.Faithful.perform` — every move keeps a chronicle faithful.
* `Daq.Chronicle.drain_complete` — a drain that is over has handed out everything.
-/

namespace Daq

namespace Hub

/-- Sinks stay stopped, and the queues of stopped sinks do not become longer. -/
def Quiet (h h' : Hub) : Prop :=
  ∀ p : PollerRef, h.IsStopped p.sink →
    h'.IsStopped p.sink ∧ (h'.items p).length ≤ (h.items p).length

/-- Producers are quiet where they have stopped. -/
lemma Evolves.quiet {h h' : Hub} (e : h.Evolves h') (hw : h.WellFormed) : h.Quiet h' :=
  fun _ hp => ⟨e.isStopped hp, (congrArg List.length (e.silent hw hp)).le⟩

/-- Touching taps is quiet if it does not make a queue longer. -/
lemma Touched.quiet {h h' : Hub} (t : h.Touched h')
    (hle : ∀ p, (h'.items p).length ≤ (h.items p).length) : h.Quiet h' :=
  fun p hp => ⟨(t.isStopped p.sink).mpr hp, hle p⟩

end Hub

variable {γ : Type}

/-! ### One step of a pass -/

namespace Books

/-- Enter what was handed out, if anything was. -/
def handOut (b : Books) : Option (PollerRef × Notification) → Books
  | some (p, n) => b.enter p n
  | none => b

/-- Handing out lets nothing arrive. -/
@[simp]
lemma arrived_handOut (b : Books) (x : Option (PollerRef × Notification)) :
    (b.handOut x).arrived = b.arrived := by
  cases x <;> rfl

end Books

namespace Scene

section Pass

variable {s : Scene γ} {w : Walk} {b : Books}

/-- An attempt to take an item finds the oldest one, or no room in the batch, or an empty queue. -/
lemma take_cases (h : Hub) (p : PollerRef) (batch : List Item) :
    (∃ item h', (if batch.length < batchSize then h.pop? p else none) = some (item, h') ∧
        h.items p = item :: h'.items p ∧ h.Consumed h' p) ∨
      (if batch.length < batchSize then h.pop? p else none) = none ∧
        (batch = [] → h.items p = []) := by
  by_cases hroom : batch.length < batchSize
  · rw [if_pos hroom]
    rcases h.pop?_consumed p with ⟨hempty, hnone⟩ | ⟨item, h', hpop, hitems, hc⟩
    · exact .inr ⟨hnone, fun _ => hempty⟩
    · exact .inl ⟨item, h', hpop, hitems, hc⟩
  · rw [if_neg hroom]
    refine .inr ⟨rfl, ?_⟩
    rintro rfl
    exact absurd (by decide : 0 < batchSize) hroom

/-- **Going on with a visit keeps the books balanced**, and is quiet. -/
lemma balanced_proceed {x : Stop} (hb : Balanced s.reconciler s.hub (some w) b)
    (hw : s.walk = some w) (hx : w.current = some x) :
    Balanced (s.proceed w x).reconciler (s.proceed w x).hub (s.proceed w x).walk
        ((b.note s.hub (s.proceed w x).hub).handOut s.handover?) ∧
      s.hub.Quiet (s.proceed w x).hub := by
  have hself : b.note s.hub s.hub = b := b.note_eq_self fun _ => le_rfl
  have hquiet : s.hub.Quiet s.hub := (Hub.Touched.refl _).quiet fun _ => le_rfl
  -- Most steps only pass on what is in hand and what the flag was.
  have hpass : ∀ progress : Progress, progress.inHand = x.progress.inHand →
      progress.sawFinished = x.progress.sawFinished →
      Balanced s.reconciler s.hub (some (w.moveTo x progress)) (b.note s.hub s.hub) := by
    intro progress hsame hsaw
    rw [hself]
    exact hb.turn hx progress hsame fun h => hb.flag x hx (hsaw.symm.trans h)
  cases hp : x.progress with
  | reading =>
    have hnone := handover?_of_progress hw hx (by simp [hp])
    simp only [proceed, hp]
    rw [hnone]
    refine ⟨?_, hquiet⟩
    change Balanced _ _ _ (b.note s.hub s.hub)
    rw [hself]
    -- The flag is read before the queue is touched.
    refine hb.turn hx _ ?_ (Hub.isStopped_of_finished hb.sound.wellFormed)
    rw [hp]
    rfl
  | taking finished batch =>
    have hnone := handover?_of_progress hw hx (by simp [hp])
    simp only [proceed, hp]
    rw [hnone]
    rcases take_cases s.hub x.poller batch with ⟨item, h', htake, hitems, hc⟩ | ⟨htake, hempty⟩
    · rw [htake]
      exact ⟨hb.take hx hp hitems hc, hc.toTouched.quiet (hc.length_le hitems)⟩
    · rw [htake]
      dsimp only
      split
      · rename_i hbatch
        obtain rfl : batch = [] := List.isEmpty_iff.mp hbatch
        refine ⟨?_, hquiet⟩
        change Balanced _ _ _ (b.note s.hub s.hub)
        rw [hself]
        exact hb.leave hx hp (hempty rfl)
      · exact ⟨hpass (.handing finished batch) (by rw [hp]; rfl) (by rw [hp]; rfl), hquiet⟩
  | handing finished left =>
    cases left with
    | nil =>
      have hnone := handover?_of_progress hw hx (by simp [hp])
      simp only [proceed, hp]
      rw [hnone]
      exact ⟨hpass (.taking finished []) (by rw [hp]; rfl) (by rw [hp]; rfl), hquiet⟩
    | cons item left =>
      obtain ⟨e, he, -⟩ := hb.current x hx
      simp only [proceed, hp, hand, he]
      rw [handover?_of_handing hw hx hp he]
      refine ⟨?_, hquiet⟩
      change Balanced ((s.reconciler.report x.visit.key (answer e.reported item).2).count fun n =>
        { n with notifications := n.notifications + 1 }) _ _ ((b.note s.hub s.hub).enter _ _)
      rw [hself]
      exact (hb.hand hx hp he ⟨x.visit.filter, (answer e.reported item).1⟩ rfl).count _

/-- **Coming to the next key keeps the books balanced**, and is quiet. -/
lemma balanced_approach (hb : Balanced s.reconciler s.hub (some w) b) (hcur : w.current = none)
    (v : Visit) (rest : List Visit) :
    Balanced (s.approach w v rest).reconciler (s.approach w v rest).hub (s.approach w v rest).walk
        (b.note s.hub (s.approach w v rest).hub) ∧
      s.hub.Quiet (s.approach w v rest).hub := by
  refine ⟨(hb.ensure hcur Hub.lawful_serve w.flush v.key).mark hcur v rest, ?_⟩
  have hw := hb.sound.wellFormed
  change s.hub.Quiet (Pass.ensure Hub.serve w.flush { reconciler := s.reconciler, hub := s.hub }
    v.key).hub
  obtain ⟨-, heq⟩ | ⟨-, -, e, -, heq⟩ | ⟨-, -, q, h', hok, heq⟩ :=
    Pass.ensure_cases { reconciler := s.reconciler, hub := s.hub } Hub.serve w.flush v.key
  · rw [heq]
    exact (Hub.Evolves.refl _).quiet hw
  · rw [heq]
    exact (Hub.Evolves.refl _).quiet hw
  · rw [heq]
    exact (Hub.lawful_serve s.hub h' v.key q hw hok).1.quiet hw

/-- **The next step of a pass keeps the books balanced**, and is quiet. -/
lemma balanced_walkOn (hb : Balanced s.reconciler s.hub (some w) b) (hw : s.walk = some w) :
    Balanced (s.walkOn w).reconciler (s.walkOn w).hub (s.walkOn w).walk
        ((b.note s.hub (s.walkOn w).hub).handOut s.handover?) ∧
      s.hub.Quiet (s.walkOn w).hub := by
  unfold walkOn
  split
  · exact balanced_proceed hb hw ‹_›
  · rename_i v rest hcur _
    rw [handover?_of_between hw hcur]
    exact balanced_approach hb hcur v rest
  · rename_i hcur _
    rw [handover?_of_between hw hcur]
    refine ⟨?_, ?_⟩
    · change Balanced _ _ _ (b.note s.hub (s.reconciler.stale.foldl Hub.release s.hub))
      rw [Balanced.note_releaseAll]
      exact (hb.evict hcur).1
    · exact (Hub.touched_releaseAll _ _).quiet fun p => by rw [Hub.items_releaseAll]

/-- **A pass that ends a drain has left nothing behind.** -/
lemma exhausted_walkOn (hb : Balanced s.reconciler s.hub (some w) b)
    (hnot : ∀ aim n, s.stage ≠ .drained aim n) {aim : Aim γ} {n : Nat}
    (hstage : (s.walkOn w).stage = .drained aim n) {k : PollerKey} {e : Entry}
    (he : (s.walkOn w).reconciler.held? k = some e) :
    (s.walkOn w).hub.Exhausted e.poller := by
  cases hcur : w.current with
  | some x =>
    rw [walkOn_of_current s hcur] at hstage
    have hsame := stage_eq_of_control (control_proceed s w x)
    exact absurd (hsame.symm.trans hstage) (hnot aim n)
  | none =>
    cases htodo : w.todo with
    | cons v rest =>
      rw [walkOn_of_todo s hcur htodo] at hstage
      exact absurd hstage (hnot aim n)
    | nil =>
      rw [walkOn_of_done s hcur htodo] at hstage he ⊢
      refine (hb.evict hcur).2 ?_ k e he
      change s.stage.afterPass w.finished = _ at hstage
      unfold Stage.afterPass at hstage
      split at hstage
      · cases hstage
      · split at hstage
        · assumption
        · cases hstage
      · exact absurd hstage (hnot aim n)

end Pass

end Scene

/-! ### A scene with books -/

/-- A scene with books on its pollers. -/
structure Chronicle (γ : Type) where
  /-- The scene. -/
  scene : Scene γ
  /-- The books. -/
  books : Books

namespace Scene

/-- What a move hands out: the poller and the notification. -/
def handout? (s : Scene γ) : Move γ → Option (PollerRef × Notification)
  | .advance => s.handover?
  | _ => none

/-- Outside of passes nothing is handed out. -/
lemma handout?_eq_none {s : Scene γ} {m : Move γ} (still : m = .advance → s.walk = none) :
    s.handout? m = none := by
  cases m with
  | advance => exact handover?_of_still (still rfl)
  | _ => rfl

end Scene

namespace Chronicle

/-- The chronicle of a worker that has not made a tick yet. -/
def start (config : WorkerConfig) : Chronicle γ where
  scene := .start config
  books := ⟨fun _ => [], fun _ => []⟩

/-- Everything is in order: the scene is orderly, the books balance, and a drain that is over has
left nothing behind. -/
structure Faithful (c : Chronicle γ) : Prop where
  /-- The scene is orderly. -/
  orderly : c.scene.Orderly
  /-- The books balance. -/
  balanced : Balanced c.scene.reconciler c.scene.hub c.scene.walk c.books
  /-- A drain that is over has left nothing behind. -/
  drained : ∀ aim n, c.scene.stage = .drained aim n → ∀ k e,
    c.scene.reconciler.held? k = some e → c.scene.hub.Exhausted e.poller

/-- The chronicle of a worker that has not begun is faithful. -/
lemma faithful_start (config : WorkerConfig) : (start config : Chronicle γ).Faithful where
  orderly := Scene.orderly_start config
  balanced := Balanced.start config.servicePath (Hub.wellFormed_empty config.capacities)
  drained := by
    intro aim n h
    cases h

/-- When the flush passes have ended, the answers to all that has arrived were handed out. -/
lemma Faithful.handed_of_drained {c : Chronicle γ} (hc : c.Faithful) {aim : Aim γ} {passes : Nat}
    (hstage : c.scene.stage = .drained aim passes) {k : PollerKey} {e : Entry}
    (he : c.scene.reconciler.held? k = some e) :
    (c.books.handed e.poller).map (fun n => n.reply) =
      (answers (.unknown k.signal) (c.books.arrived e.poller)).1 := by
  have hwalk := hc.orderly.walk_of_drained hstage
  obtain ⟨-, hempty⟩ := hc.drained aim passes hstage k e he
  obtain ⟨done, harrived, hanswers⟩ := hc.balanced.ledger k e he
  -- Nothing is in hand and nothing waits.
  rw [hwalk, hempty] at harrived
  have hdone : c.books.arrived e.poller = done := by
    simpa [inHand, stop?] using harrived
  rw [hdone, hanswers]

variable [FlowGraph γ]

/-- The chronicle after a move: what was appended to the queues and what was handed out is entered
in the books. -/
def perform (c : Chronicle γ) (m : Scene.Move γ) : Chronicle γ where
  scene := c.scene.perform m
  books := (c.books.note c.scene.hub (c.scene.perform m).hub).handOut (c.scene.handout? m)

/-- The chronicle after several moves. -/
def run (c : Chronicle γ) (moves : List (Scene.Move γ)) : Chronicle γ := moves.foldl perform c

/-- Keeping books does not interfere. -/
lemma scene_run (c : Chronicle γ) (moves : List (Scene.Move γ)) :
    (c.run moves).scene = c.scene.run moves := by
  induction moves generalizing c with
  | nil => rfl
  | cons m moves ih => exact ih (c.perform m)

variable [LawfulGraph γ] {c : Chronicle γ}

/-- **Every move keeps a chronicle faithful**, and is quiet. -/
theorem Faithful.perform (hc : c.Faithful) (m : Scene.Move γ) :
    (c.perform m).Faithful ∧ c.scene.hub.Quiet (c.perform m).scene.hub := by
  have horderly := hc.orderly.perform m
  have hdeed := hc.orderly.deed m
  have hb := hc.balanced
  have hw := hb.sound.wellFormed
  suffices hall : Balanced (c.perform m).scene.reconciler (c.perform m).scene.hub
        (c.perform m).scene.walk (c.perform m).books ∧
      (∀ aim n, (c.perform m).scene.stage = .drained aim n → ∀ k e,
        (c.perform m).scene.reconciler.held? k = some e →
          (c.perform m).scene.hub.Exhausted e.poller) ∧
      c.scene.hub.Quiet (c.perform m).scene.hub from
    ⟨⟨horderly, hall.1, hall.2.1⟩, hall.2.2⟩
  unfold Chronicle.perform
  dsimp only
  generalize c.scene.perform m = s' at hdeed
  cases hdeed with
  | aside still walk hub reconciler joining drained =>
    rw [Scene.handout?_eq_none still, walk, reconciler]
    refine ⟨hb.evolves hub, ?_, hub.quiet hw⟩
    intro aim n hstage k e he
    exact (hc.drained aim n (drained aim n hstage) k e he).evolves hw hub
  | begin flush still due =>
    have hself : c.books.note c.scene.hub c.scene.hub = c.books :=
      c.books.note_eq_self fun _ => le_rfl
    rw [Scene.handout?_eq_none fun _ => still]
    refine ⟨?_, ?_, (Hub.Evolves.refl _).quiet hw⟩
    · change Balanced _ _ _ (c.books.note c.scene.hub c.scene.hub)
      rw [hself]
      rw [still] at hb
      exact hb.beginWalk _ flush _
    · intro aim n hstage
      exact absurd hstage ((hc.orderly.holds_of_due due).2.2 aim n)
  | onward w walk =>
    rw [walk] at hb
    obtain ⟨hbalanced, hquiet⟩ := Scene.balanced_walkOn hb walk
    refine ⟨hbalanced, ?_, hquiet⟩
    intro aim n hstage k e he
    exact Scene.exhausted_walkOn hb (hc.orderly.holds_of_due (hc.orderly.paced w walk)).2.2 hstage he
  | clear aim passes still still' stage stage' clear =>
    rw [Scene.handout?_eq_none fun _ => still, still']
    rw [still] at hb
    have hreconciler : s'.reconciler = (c.scene.reconciler.clear c.scene.hub).1 := by rw [clear]
    have hhub : s'.hub = (c.scene.reconciler.clear c.scene.hub).2 := by rw [clear]
    have hnote : c.books.note c.scene.hub s'.hub = c.books := by
      rw [hhub]
      exact Balanced.note_releaseAll _ _ _
    refine ⟨?_, ?_, ?_⟩
    · change Balanced _ _ _ (c.books.note c.scene.hub s'.hub)
      rw [hnote, hreconciler, hhub]
      exact hb.clear
    · intro aim' n hstage
      rw [stage'] at hstage
      cases hstage
    · rw [hhub]
      exact (Hub.touched_releaseAll _ _).quiet fun p => by rw [Hub.items_releaseAll]

/-- Every run is faithful. -/
lemma Faithful.run (hc : c.Faithful) (moves : List (Scene.Move γ)) : (c.run moves).Faithful := by
  induction moves generalizing c with
  | nil => exact hc
  | cons m moves ih => exact ih (hc.perform m).1

/-- **Nothing arrives at a poller whose sink has stopped**, whatever anyone does. -/
lemma Faithful.arrived_run (hc : c.Faithful) {p : PollerRef} (hp : c.scene.hub.IsStopped p.sink)
    (moves : List (Scene.Move γ)) : (c.run moves).books.arrived p = c.books.arrived p := by
  induction moves generalizing c with
  | nil => rfl
  | cons m moves ih =>
    obtain ⟨hnext, hquiet⟩ := hc.perform m
    obtain ⟨hstopped, hle⟩ := hquiet p hp
    have hsame : (c.perform m).books.arrived p = c.books.arrived p := by
      have hnone : c.scene.hub.appended (c.perform m).scene.hub p = [] := Hub.appended_eq_nil hle
      calc (c.perform m).books.arrived p
          = c.books.arrived p ++ c.scene.hub.appended (c.perform m).scene.hub p := by
            simp only [Chronicle.perform, Books.arrived_handOut, Books.note]
        _ = c.books.arrived p := by rw [hnone, List.append_nil]
    exact (ih hnext hstopped).trans hsame

/-- The execution thread is waited for with no pollers left, and from the end of the flush passes
on. -/
lemma Faithful.drained_of_joining (hc : c.Faithful) {m : Scene.Move γ} {aim : Aim γ}
    (hstage : (c.perform m).scene.stage = .joining aim) :
    (c.perform m).scene.reconciler.isEmpty = true ∧
      (c.scene.stage = .joining aim ∨
        m = .advance ∧ ∃ passes, c.scene.stage = .drained aim passes) := by
  refine ⟨?_, ?_⟩
  · by_contra hne
    exact ((hc.perform m).1.orderly.tables (by simpa using hne)).2 aim hstage
  · have hdeed := hc.orderly.deed m
    change (c.scene.perform m).stage = _ at hstage
    generalize c.scene.perform m = s' at hdeed hstage
    cases hdeed with
    | aside still walk hub reconciler joining drained => exact .inl (joining aim hstage)
    | begin flush still due => exact .inl hstage
    | onward w walk =>
      have hdue := hc.orderly.holds_of_due (hc.orderly.paced w walk)
      rcases (Scene.shift_walkOn hc.orderly.paced walk).cleared hstage with hsame | ⟨n, hdrained⟩
      · exact .inl hsame
      · exact absurd hdrained (hdue.2.2 aim n)
    | clear aim' passes still still' stage stage' clear =>
      rw [stage'] at hstage
      cases hstage
      exact .inr ⟨rfl, passes, stage⟩

/-- **Nothing is lost in a drain.** Whatever the execution thread and the clients do, and at whatever
point of a pass they do it:
* when the flush passes have ended, then for every poller that is left, what was handed out to the
  broker are the answers to all that its queue has ever accepted, each once and in order, and its
  queue will never accept anything more;
* a poller is let go only at the end of a pass that has not visited it, or when the flush passes
  have ended;
* the execution thread is waited for only after that, with no pollers left, and it is let go only
  when it has ended.

**Proof sketch.** The books balance in every run, and a pass that has seen only finished producers
has left nothing behind: it reads the flag before it empties the queue. A sink that has stopped stays
silent. -/
theorem drain_complete (config : WorkerConfig) (moves : List (Scene.Move γ)) :
    let c := (start config : Chronicle γ).run moves
    (∀ aim passes, c.scene.stage = .drained aim passes →
      c.scene.walk = none ∧
        ∀ k ∈ c.scene.reconciler.keys, ∃ e, c.scene.reconciler.held? k = some e ∧
          (c.books.handed e.poller).map (fun n => n.reply) =
            (answers (.unknown k.signal) (c.books.arrived e.poller)).1 ∧
          ∀ more, (c.run more).books.arrived e.poller = c.books.arrived e.poller) ∧
    (∀ m k p, c.scene.reconciler.poller? k = some p →
      (c.perform m).scene.reconciler.poller? k ≠ some p →
        m = .advance ∧
          ((∃ w e, c.scene.walk = some w ∧ w.current = none ∧ w.todo = [] ∧
              c.scene.reconciler.held? k = some e ∧ e.inUse = false) ∨
            ∃ aim passes, c.scene.stage = .drained aim passes)) ∧
    (∀ m aim, (c.perform m).scene.stage = .joining aim →
      (c.perform m).scene.reconciler.isEmpty = true ∧
        (c.scene.stage = .joining aim ∨
          m = .advance ∧ ∃ passes, c.scene.stage = .drained aim passes)) ∧
    (∀ m x, c.scene.station.worker.scheduler = some x →
      (c.perform m).scene.station.worker.scheduler = none →
        m = .advance ∧ (∃ aim, c.scene.stage = .joining aim) ∧ x.isGone = true) ∧
    (c.perform .advance).scene.station.broker =
      match c.scene.handout? .advance with
      | some (_, n) => c.scene.station.broker.notify c.scene.reconciler.service n
      | none => c.scene.station.broker := by
  intro c
  have hc : c.Faithful := (faithful_start config).run moves
  have hsound := hc.balanced.sound
  refine ⟨?_, ?_, ?_, ?_, c.scene.broker_advance⟩
  · intro aim passes hstage
    refine ⟨hc.orderly.walk_of_drained hstage, ?_⟩
    intro k hk
    obtain ⟨e, he⟩ := Option.isSome_iff_exists.mp ((Reconciler.mem_keys hsound.filed k).mp hk)
    obtain ⟨hstopped, -⟩ := hc.drained aim passes hstage k e he
    exact ⟨e, he, hc.handed_of_drained hstage he, hc.arrived_run hstopped⟩
  · intro m k p hp hne
    have hfate := hc.orderly.fate hsound.wellFormed m k
    cases hfate with
    | kept same => exact absurd (same.trans hp) hne
    | opened q move due missing opened fresh => cases missing.symm.trans hp
    | evicted w e move walk last held unused gone =>
      exact ⟨move, .inl ⟨w, e, walk, last.1, last.2, held, unused⟩⟩
    | cleared aim passes move stage gone => exact ⟨move, .inr ⟨aim, passes, stage⟩⟩
  · intro m aim hstage
    exact hc.drained_of_joining hstage
  · intro m x hx hnone
    exact Scene.gone_of_dropped hx hnone

/-- A graph with one sink, which pushes a block in its first round and another when it is stopped. -/
def sampleGraph : ManualGraph where
  name := "sample"
  outputs := [("A", 0)]
  inbox := [⟨"A", ⟨[], []⟩⟩]
  tail := [⟨"A", ⟨[.zero], []⟩⟩]

/-- The graph is started and its poller is opened; then it works, a stop is requested, and the graph
is stopped after the first flush pass only. -/
def sampleMoves : List (Scene.Move ManualGraph) :=
  List.flatten
    [[.act (.make (.unknown "A") .zero), .setGraph sampleGraph,
        .subscribe ⟨"/acquisition", Table.ofList [(Filter.channelsParam, "A")]⟩, .tick],
      List.replicate 9 .advance, [.tick], List.replicate 9 .advance,
      [.execute, .requestStop, .tick], List.replicate 20 .advance,
      [.execute, .execute], List.replicate 9 .advance]

/-- When the second flush pass has ended, both blocks were handed out, and no other will come. -/
theorem drain_complete_sample :
    let c := (start {} : Chronicle ManualGraph).run sampleMoves
    c.scene.stage = .drained .shutDown 2 ∧
      ∃ e, c.scene.reconciler.held? (.continuous "A") = some e ∧
        (c.books.handed e.poller).length = 2 ∧
          ∀ more, ((c.run more).books.arrived e.poller).length = 2 := by
  intro c
  have hstage : c.scene.stage = .drained .shutDown 2 := by rfl
  have hkey : .continuous "A" ∈ c.scene.reconciler.keys := by decide +kernel
  have hpoller : c.scene.reconciler.poller? (.continuous "A") = some ⟨0, 0⟩ := by decide +kernel
  have htwo : (c.books.arrived ⟨0, 0⟩).length = 2 := by decide +kernel
  obtain ⟨-, hdrained⟩ := (drain_complete {} sampleMoves).1 .shutDown 2 hstage
  obtain ⟨e, he, hhanded, hsilent⟩ := hdrained _ hkey
  have hp : e.poller = ⟨0, 0⟩ := by
    rw [Reconciler.poller?, show c.scene.reconciler.held? (.continuous "A") = some e from he] at hpoller
    exact Option.some.inj hpoller
  refine ⟨hstage, e, he, ?_, ?_⟩
  · rw [← List.length_map (fun n : Notification => n.reply), hhanded, length_answers, hp, htwo]
  · intro more
    rw [hsilent more, hp, htwo]

end Chronicle

end Daq

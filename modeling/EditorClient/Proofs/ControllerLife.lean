import EditorClient.Proofs.ControllerTurns
import EditorClient.Proofs.FailedStart

/-! What follows for the whole life of a controller. It comes into each of its states at most once, and
what it asks of its session comes right after. -/

namespace EditorClient

open Procedure

namespace Station

def stage : Station → Nat
  | ⟨none, _, _⟩ => 0
  | ⟨some c, stoppers, _⟩ =>
    match c.state with
    | .unstarted => 1
    | .starting => 2
    | .running => 3 + stoppers
    | .stopped | .failed => 5

def IsIn (s : Station) (states : List LifecycleState) : Prop :=
  ∃ c, s.controller = some c ∧ c.state ∈ states

/-- The controller holds a session just if it runs. -/
def Paired (s : Station) : Prop :=
  ∀ c, s.controller = some c → (c.session.isSome = true ↔ c.state = .running)

/-- The controller has called nothing on sessions, or the start of one, or its start and then its
stop. -/
def CallsOnce (s : Station) : Prop := ∃ j, s.calls <+: [.start j, .stop j]

namespace Moves

variable {s s' : Station}

theorem stage_le (h : s.Moves s') : s.stage ≤ s'.stage := by
  cases h <;> simp [stage]

theorem eq_of_final (h : s.Moves s') (hs : s.IsIn [.stopped, .failed]) :
    s'.controller = s.controller ∧ s'.stoppers = s.stoppers := by
  cases h <;> simp_all [IsIn]

theorem paired (h : s.Moves s') : s'.Paired := by
  cases h with
  | stays h => cases h <;> simp [Paired]
  | _ => simp [Paired]

theorem callsOnce (h : s.Moves s') : s'.CallsOnce := by
  cases h with
  | stays h => cases h <;> simp [CallsOnce]
  | _ => simp [CallsOnce]

/-- The stage that separates those that have come into the states from those that have not. -/
theorem crosses (h : s.Moves s') {states : List LifecycleState} {n : Nat}
    (hn : (states, n) ∈ [([LifecycleState.starting], 2), ([.running], 3), ([.stopped, .failed], 5)])
    (hs : ¬s.IsIn states) (hs' : s'.IsIn states) : s.stage < n ∧ n ≤ s'.stage := by
  simp only [List.mem_cons, Prod.mk.injEq, List.not_mem_nil, or_false] at hn
  rcases hn with ⟨rfl, rfl⟩ | ⟨rfl, rfl⟩ | ⟨rfl, rfl⟩
  all_goals
    cases h with
    | stays => exact absurd hs' hs
    | _ => simp_all [IsIn, stage]

theorem unregistered (h : s.Moves s') (hne : s'.stoppers ≠ s.stoppers) :
    ∃ n j, s = ⟨some ⟨n, some j, .running⟩, 0, [.start j]⟩ := by
  cases h with
  | registers n j => exact ⟨n, j, rfl⟩
  | _ => exact absurd rfl hne

theorem not_regular_unregistered (n : Notifier) (j : Nat) :
    ¬Regular ⟨some ⟨n, some j, .running⟩, 0, [.start j]⟩ := nofun

theorem isIn_running_of_unregistered {n : Notifier} {j : Nat}
    (h : s.Moves ⟨some ⟨n, some j, .running⟩, 0, [.start j]⟩) : ¬s.IsIn [.running] := by
  generalize hs' : (⟨some ⟨n, some j, .running⟩, 0, [.start j]⟩ : Station) = s' at h
  cases h with
  | stays h => exact absurd (hs' ▸ h) (not_regular_unregistered n j)
  | runs n j => simp [IsIn]
  | _ => cases hs'

theorem eq_of_unregistered {n : Notifier} {j : Nat}
    (h : Moves ⟨some ⟨n, some j, .running⟩, 0, [.start j]⟩ s') :
    s' = ⟨some ⟨n, some j, .running⟩, 1, [.start j]⟩ := by
  cases h with
  | stays h => exact absurd h (not_regular_unregistered n j)
  | registers => rfl

theorem unregistered_of_enters (h : s.Moves s') (hs : ¬s.IsIn [.running]) (hs' : s'.IsIn [.running]) :
    ∃ n j, s' = ⟨some ⟨n, some j, .running⟩, 0, [.start j]⟩ := by
  cases h with
  | runs n j => exact ⟨n, j, rfl⟩
  | stays => exact absurd hs' hs
  | registers n j => exact absurd ⟨_, rfl, List.mem_singleton.mpr rfl⟩ hs
  | _ => simp [IsIn] at hs'

end Moves

end Station

namespace World

/-- At this place of the list the controller comes into one of the states. -/
def Enters (ws : List World) (k : Nat) (states : List LifecycleState) (m : Nat) : Prop :=
  ∃ w w', ws[m]? = some w ∧ ws[m + 1]? = some w' ∧ ¬(w.station k).IsIn states ∧
    (w'.station k).IsIn states

variable {ws : List World} (h : ws.IsChain Turns)
include h

theorem turn_of_isChain {m : Nat} {w w' : World} (hw : ws[m]? = some w) (hw' : ws[m + 1]? = some w')
    (k : Nat) : Controller.Turn k w w' := by
  obtain ⟨_, rfl⟩ := List.getElem?_eq_some_iff.mp hw
  obtain ⟨hlt, rfl⟩ := List.getElem?_eq_some_iff.mp hw'
  exact List.isChain_iff_getElem.mp h m hlt k

theorem stage_le_of_isChain (k : Nat) {i j : Nat} (hij : i ≤ j) {w w' : World}
    (hw : ws[i]? = some w) (hw' : ws[j]? = some w') :
    (w.station k).stage ≤ (w'.station k).stage :=
  rel_of_isChain (R := fun w w' => (World.station w k).stage ≤ (World.station w' k).stage)
    (fun _ => Nat.le_refl _) Nat.le_trans (h.imp fun _ _ ht => (ht k).moves.stage_le) hij hw hw'

theorem station_of_final (k : Nat) {i j : Nat} (hij : i ≤ j) {w w' : World}
    (hw : ws[i]? = some w) (hw' : ws[j]? = some w')
    (hfinal : (w.station k).IsIn [.stopped, .failed]) :
    (w'.station k).controller = (w.station k).controller ∧
      (w'.station k).stoppers = (w.station k).stoppers := by
  refine rel_of_isChain (R := fun w w' => (World.station w k).IsIn [.stopped, .failed] →
    (World.station w' k).controller = (w.station k).controller ∧
      (World.station w' k).stoppers = (w.station k).stoppers) (fun _ _ => ⟨rfl, rfl⟩)
    (fun hxy hyz hx => ?_) (h.imp fun _ _ ht => (ht k).moves.eq_of_final) hij hw hw' hfinal
  obtain ⟨hc, hs⟩ := hxy hx
  obtain ⟨hc', hs'⟩ := hyz (by rwa [Station.IsIn, hc])
  exact ⟨hc'.trans hc, hs'.trans hs⟩

/-- What is true of a controller that is not made yet and after every move is true in all the worlds. -/
theorem station_of_isChain (directory : String) {log : LogDirectory}
    (hfirst : ws[0]? = some (.initial directory log)) {P : Station → Prop}
    (habsent : P ⟨none, 0, []⟩) (hmoves : ∀ {s s' : Station}, s.Moves s' → P s') (k : Nat) {w : World}
    (hw : w ∈ ws) : P (w.station k) := by
  obtain ⟨m, hm⟩ := List.getElem?_of_mem hw
  cases m with
  | zero =>
    rw [hfirst, Option.some.injEq] at hm
    rw [← hm]
    exact habsent
  | succ m =>
    have hlt : m < ws.length := Nat.lt_of_succ_lt (List.getElem?_eq_some_iff.mp hm).1
    exact hmoves (turn_of_isChain h (List.getElem?_eq_getElem hlt) hm k).moves

theorem enters_unique (k : Nat) {states : List LifecycleState}
    (hstates : states ∈ [[.starting], [.running], [.stopped, .failed]]) {m m' : Nat}
    (hm : Enters ws k states m) (hm' : Enters ws k states m') : m = m' := by
  obtain ⟨n, hn⟩ : ∃ n, (states, n) ∈
      [([LifecycleState.starting], 2), ([.running], 3), ([.stopped, .failed], 5)] := by
    simp only [List.mem_cons, List.not_mem_nil, or_false] at hstates
    rcases hstates with rfl | rfl | rfl <;> simp
  have hlt : ∀ {m m'}, Enters ws k states m → Enters ws k states m' → ¬m < m' := by
    rintro m m' ⟨x, x', hx, hx', hout, hin⟩ ⟨y, y', hy, hy', hout', hin'⟩ hmm
    have hpassed := ((turn_of_isChain h hx hx' k).moves.crosses hn hout hin).2
    have hbefore := ((turn_of_isChain h hy hy' k).moves.crosses hn hout' hin').1
    have hle := stage_le_of_isChain h k hmm hx' hy
    omega
  exact Nat.le_antisymm (Nat.le_of_not_lt (hlt hm' hm)) (Nat.le_of_not_lt (hlt hm hm'))

/-- Where a controller gets its disposable, it has just come to run. -/
theorem enters_of_stoppers (directory : String) {log : LogDirectory}
    (hfirst : ws[0]? = some (.initial directory log)) (k : Nat) {m : Nat} {w w' : World}
    (hw : ws[m]? = some w) (hw' : ws[m + 1]? = some w')
    (hne : (w'.station k).stoppers ≠ (w.station k).stoppers) :
    ∃ m', m = m' + 1 ∧ Enters ws k [.running] m' := by
  obtain ⟨n, j, hs⟩ := (turn_of_isChain h hw hw' k).moves.unregistered hne
  cases m with
  | zero =>
    rw [hfirst, Option.some.injEq] at hw
    rw [← hw] at hs
    cases hs
  | succ m =>
    have hlt : m < ws.length := Nat.lt_of_succ_lt (List.getElem?_eq_some_iff.mp hw).1
    have hbefore := List.getElem?_eq_getElem hlt
    have hmoves := (turn_of_isChain h hbefore hw k).moves
    rw [hs] at hmoves
    refine ⟨m, rfl, ws[m], w, hbefore, hw, hmoves.isIn_running_of_unregistered, ?_⟩
    rw [hs]
    exact ⟨_, rfl, List.mem_singleton.mpr rfl⟩

/-- Where a controller comes to run, it gets its disposable next. -/
theorem registers_of_enters (hlast : ∀ w, ws.getLast? = some w → w.Regular) (k : Nat) {m : Nat}
    (hm : Enters ws k [.running] m) : ∃ w context, ws[m + 1]? = some w ∧
      ws[m + 2]? = some (addSubscription (.stopController k) context w) := by
  obtain ⟨w, w', hw, hw', hout, hin⟩ := hm
  obtain ⟨n, j, hs⟩ := (turn_of_isChain h hw hw' k).moves.unregistered_of_enters hout hin
  obtain ⟨hlt, hget⟩ := List.getElem?_eq_some_iff.mp hw'
  rcases Nat.lt_or_ge (m + 2) ws.length with hnext | hend
  · have hafter := List.getElem?_eq_getElem hnext
    have hturn := turn_of_isChain h hw' hafter k
    have hmoves := hturn.moves
    rw [hs] at hmoves
    obtain ⟨context, hcontext⟩ := hturn.registered (by rw [hmoves.eq_of_unregistered, hs]; simp)
    exact ⟨w', context, hw', by rw [hafter, hcontext]⟩
  -- the run cannot end here, for then the last world would not be regular
  · have hlast' : ws.getLast? = some w' := by
      rw [List.getLast?_eq_getElem?, ← hw']
      congr 1
      omega
    exact absurd (hs ▸ hlast w' hlast' k) (Station.Moves.not_regular_unregistered n j)

end World

def Deed.turn (s : Setting) (f : World → World) (r : Remark) : List Deed :=
  [.update s.world (f s.world), .update (f s.world) ((f s.world).remark r)]

namespace Controller

variable {respond : Call → Setting → Except Fault Reply × Setting} {k j : Nat} {c : Controller}
  {s : Setting} {x : Session}

def stopping (k : Nat) (name : Value) (s : Setting) : Setting :=
  ⟨(s.world.modifyController k fun c => { c with session := none, state := .stopped }).remark
    (.stoppingClient name), s.script⟩

/-- What a controller does after its session has been started, by what came of that. The session is
stopped once, if it has failed for an ordinary reason and the user can be told, and else not at all. -/
inductive Concluded (respond : Call → Setting → Except Fault Reply × Setting) (k j : Nat)
    (n : Notifier) (name : Value) : Except Fault Unit × Setting → List Deed → Prop where
  | running {u : Unit} {t : Setting} {ds : List Deed} (h : ∀ d ∈ ds, d.exchange? = none) :
    Concluded respond k j n name (.ok u, t) ds
  | interrupted {f : Fault} {t : Setting} (h : f.isOrdinary = false) :
    Concluded respond k j n name (.error f, t) []
  | untold {f g : Fault} {t u : Setting} (h : f.isOrdinary = true)
    (hnotice : (notifyFailure n f).run respond (failing k name f t) = (.error g, u)) :
    Concluded respond k j n name (.error f, t)
      (Deed.turn t (·.modifyController k fun c => { c with state := .failed }) (.startFailed name f) ++
        (notifyFailure n f).deeds respond (failing k name f t))
  | released {f : Fault} {v : Unit} {t u : Setting} {ds : List Deed} (h : f.isOrdinary = true)
    (hnotice : (notifyFailure n f).run respond (failing k name f t) = (.ok v, u))
    (hds : ∀ d ∈ ds, d.exchange? = none) :
    Concluded respond k j n name (.error f, t)
      (Deed.turn t (·.modifyController k fun c => { c with state := .failed }) (.startFailed name f) ++
        (notifyFailure n f).deeds respond (failing k name f t) ++ (stopSession k j).deeds respond u ++ ds)

/-- What a controller does when it is started. Its session is started once. -/
def StartsOnce (respond : Call → Setting → Except Fault Reply × Setting) (k j : Nat) (n : Notifier)
    (name : Value) (s : Setting) (ds : List Deed) : Prop :=
  ∃ rest, ds = Deed.turn s (·.modifyController k fun c => { c with state := .starting })
        (.startingClient name) ++
      (startSession k j).deeds respond (starting k name s) ++ rest ∧
    Concluded respond k j n name ((startSession k j).run respond (starting k name s)) rest

theorem start_of_started (hk : s.world.controllers[k]? = some c) (hc : c.state ≠ .unstarted)
    (j context : Nat) :
    (start k j context).run respond s = (.error (.startedFrom c.state), s) ∧
      (start k j context).deeds respond s = [] := by
  have hlead : (start k j context).Leads (.ofAccounts respond) ⟨s, []⟩ fun r a =>
      (r, a.setting) = (.error (.startedFrom c.state), s) ∧ a.deeds = [] := by
    rw [start, find, Procedure.leads_find_bind hk]
    dsimp only
    rw [if_pos hc]
    exact ⟨rfl, rfl⟩
  exact (leads_runs _ _ _).mp hlead

theorem leads_release_deeds (a : Account) :
    (release k j).Leads (.ofAccounts respond) a fun _ a' => ∃ ds : List Deed,
      a'.deeds = a.deeds ++ (stopSession k j).deeds respond a.setting ++ ds ∧
        ∀ d ∈ ds, d.exchange? = none := by
  rw [release, leads_recoverOrdinary, leads_accounts]
  generalize (stopSession k j).run respond a.setting = r
  obtain ⟨r, t⟩ := r
  cases r with
  | ok u => exact ⟨[], by simp, by simp⟩
  | error f => exact ⟨fun _ => ⟨_, rfl, by simp [Deed.exchange?]⟩, fun _ => ⟨[], by simp, by simp⟩⟩

theorem leads_running_deeds (a : Account) (k j context : Nat) (name : Value) :
    (do
      modify k fun c => { c with session := some j, state := .running }
      Procedure.change (addSubscription (.stopController k) context)
      Procedure.remark (.clientRunning name)
      pure true : Procedure Bool).Leads (.ofAccounts respond) a fun _ a' => ∃ ds : List Deed,
        a'.deeds = a.deeds ++ ds ∧ ∀ d ∈ ds, d.exchange? = none := by
  simp only [modify, leads_bind, leads_change, leads_remark, onOk, leads_pure,
    Passage.update_ofAccounts, Account.update, List.append_assoc]
  exact ⟨_, rfl, by simp [Deed.exchange?]⟩

variable {n : Notifier}

theorem concluded_of_fault {a : Account} {contexts : List Context} {fault : Fault}
    (h : a.Holding k ⟨n, none, .starting⟩ j contexts) (hord : fault.isOrdinary = true)
    (name : Value) :
    (startFailed k j name fault).Leads (.ofAccounts respond) a fun _ a' => ∃ rest,
      a'.deeds = a.deeds ++ rest ∧ Concluded respond k j n name (.error fault, a.setting) rest := by
  have hcontroller := getElem?_modify_self
    (fun c : Controller => { c with state := .failed }) h.controller
  rw [startFailed, leads_bind, modify, leads_change]
  dsimp only [onOk]
  rw [leads_bind, leads_remark]
  dsimp only [onOk]
  rw [find, Procedure.leads_find_bind hcontroller, leads_bind, leads_accounts]
  change onOk _ _ ((notifyFailure n fault).run respond (failing k name fault a.setting)).1
    (Account.mk ((notifyFailure n fault).run respond (failing k name fault a.setting)).2 _)
  generalize htold : (notifyFailure n fault).run respond (failing k name fault a.setting) = told
  obtain ⟨r, u⟩ := told
  cases r with
  | error g =>
    refine ⟨_, ?_, .untold hord htold⟩
    simp [Account.update, Deed.turn, failing, Account.world]
  | ok v =>
    refine (leads_release_deeds (k := k) _).mono fun _ a' ha' => ?_
    obtain ⟨ds, hds, hnone⟩ := ha'
    refine ⟨_, ?_, .released hord htold hnone⟩
    rw [hds]
    simp [Account.update, Deed.turn, failing, Account.world]

theorem startsOnce (hmeanwhile : ∀ (call : Call) (s : Setting),
      (s.world.happen (.called call)).Meanwhile (respond call s).2.world)
    (hk : s.world.controllers[k]? = some ⟨n, none, .unstarted⟩)
    (hj : s.world.sessions[j]? = some x) (context : Nat) :
    StartsOnce respond k j n x.name s ((start k j context).deeds respond s) := by
  have hheld := holding_started hmeanwhile hk hj
  have hlead : (start k j context).Leads (.ofAccounts respond) ⟨s, []⟩ fun _ a =>
      StartsOnce respond k j n x.name s a.deeds := by
    rw [leads_goOn hk hj, goOn, leads_bind, leads_recoverOrdinary, leads_bind, leads_accounts]
    change onOk _ _ ((startSession k j).run respond (starting k x.name s)).1
      (Account.mk ((startSession k j).run respond (starting k x.name s)).2
        (Deed.turn s (·.modifyController k fun c => { c with state := .starting })
            (.startingClient x.name) ++
          (startSession k j).deeds respond (starting k x.name s)))
    unfold StartsOnce
    generalize (startSession k j).run respond (starting k x.name s) = r at hheld ⊢
    obtain ⟨r, t⟩ := r
    cases r with
    | ok u =>
      dsimp only [onOk]
      rw [leads_pure]
      dsimp only [onError, onOk]
      rw [if_pos rfl]
      refine (leads_running_deeds _ k j context x.name).mono fun _ a ha => ?_
      obtain ⟨ds, hds, hnone⟩ := ha
      exact ⟨ds, hds, .running hnone⟩
    | error f =>
      refine ⟨fun hord => ?_, fun hord => ⟨[], (List.append_nil _).symm, .interrupted hord⟩⟩
      rw [leads_bind]
      refine (concluded_of_fault hheld hord x.name).mono fun r a ha => ?_
      cases r with
      | ok v => exact ha
      | error g => exact ha
  exact (leads_runs _ _ _).mp hlead

theorem stop_deeds_of_running (hk : s.world.controllers[k]? = some ⟨n, some j, .running⟩)
    (hj : s.world.sessions[j]? = some x) :
    (stop k).deeds respond s =
      Deed.turn s (·.modifyController k fun c => { c with session := none, state := .stopped })
          (.stoppingClient x.name) ++
        (stopSession k j).deeds respond (stopping k x.name s) := by
  have hlead : (stop k).Leads (.ofAccounts respond) ⟨s, []⟩ fun _ a => a.deeds =
      Deed.turn s (·.modifyController k fun c => { c with session := none, state := .stopped })
          (.stoppingClient x.name) ++
        (stopSession k j).deeds respond (stopping k x.name s) := by
    rw [stop, find, Procedure.leads_find_bind hk]
    dsimp only
    rw [leads_bind, modify, leads_change]
    dsimp only [onOk]
    rw [Session.find, Procedure.leads_find_bind hj, leads_bind, leads_remark]
    dsimp only [onOk]
    rw [leads_accounts]
    rfl
  exact (leads_runs _ _ _).mp hlead

theorem stop_deeds_of_idle (hk : s.world.controllers[k]? = some c) (hc : c.state ≠ .running) :
    (stop k).deeds respond s = [.update s.world (s.world.remark (.nothingToStop c.state))] := by
  have hlead : (stop k).Leads (.ofAccounts respond) ⟨s, []⟩ fun _ a =>
      a.deeds = [.update s.world (s.world.remark (.nothingToStop c.state))] := by
    rw [stop, find, Procedure.leads_find_bind hk]
    split
    · rename_i hrun _
      exact absurd hrun hc
    · rfl
  exact (leads_runs _ _ _).mp hlead

/-- The life of every controller, told by the worlds of a run. -/
structure Lived (ws : List World) : Prop where
  turns : ws.IsChain World.Turns
  paired : ∀ w ∈ ws, ∀ k, (World.station w k).Paired
  final : ∀ (k i i' : Nat) (w w' : World), i ≤ i' → ws[i]? = some w → ws[i']? = some w' →
    (w.station k).IsIn [.stopped, .failed] →
      (w'.station k).controller = (w.station k).controller ∧
        (w'.station k).stoppers = (w.station k).stoppers
  calls : ∀ w ∈ ws, ∀ k, (World.station w k).CallsOnce
  once : ∀ k m m', ∀ states ∈ [[.starting], [.running], [.stopped, .failed]],
    World.Enters ws k states m → World.Enters ws k states m' → m = m'
  registers : ∀ k m, World.Enters ws k [.running] m → ∃ w context, ws[m + 1]? = some w ∧
    ws[m + 2]? = some (addSubscription (.stopController k) context w)
  running : ∀ (k m : Nat) (w w' : World), ws[m]? = some w → ws[m + 1]? = some w' →
    (w'.station k).stoppers ≠ (w.station k).stoppers →
      ∃ m', m = m' + 1 ∧ World.Enters ws k [.running] m'

/-- What a controller does itself in a setting: once started it is never started again, and its session
is started and stopped only as it comes into the states for that. -/
structure Disciplined (respond : Call → Setting → Except Fault Reply × Setting) (k : Nat)
    (s : Setting) : Prop where
  refuses : ∀ {c}, s.world.controllers[k]? = some c → c.state ≠ .unstarted → ∀ j context,
    (start k j context).run respond s = (.error (.startedFrom c.state), s) ∧
      (start k j context).deeds respond s = []
  starts : ∀ {n j x}, s.world.controllers[k]? = some ⟨n, none, .unstarted⟩ →
    s.world.sessions[j]? = some x → ∀ context,
      StartsOnce respond k j n x.name s ((start k j context).deeds respond s)
  stops : ∀ {n j x}, s.world.controllers[k]? = some ⟨n, some j, .running⟩ →
    s.world.sessions[j]? = some x →
      (stop k).deeds respond s =
        Deed.turn s (·.modifyController k fun c => { c with session := none, state := .stopped })
            (.stoppingClient x.name) ++
          (stopSession k j).deeds respond (stopping k x.name s)
  idles : ∀ {c}, s.world.controllers[k]? = some c → c.state ≠ .running →
    (stop k).deeds respond s = [.update s.world (s.world.remark (.nothingToStop c.state))]

/-- Every controller leads this life in every run, and does by itself no more than belongs to it. -/
theorem life (limit depth : Nat) (directory : String) (log : LogDirectory) (script : Script)
    (steps : List Step) :
    let first := Setting.start directory log script
    Lived (first.world :: Step.runWorlds limit depth steps first) ∧
      ∀ k s, Disciplined (Call.respond (Step.leave limit depth)) k s := by
  intro first
  obtain ⟨hchain, hregular⟩ := (Step.turns_contract limit).leaveAll depth steps first
    (Trail.regular_start directory log)
  have hlast : ∀ w, (first.world :: Step.runWorlds limit depth steps first).getLast? = some w →
      w.Regular := by
    intro w hw
    rw [← Option.some.inj ((Trail.getLast?_worlds ⟨_, _⟩).symm.trans hw)]
    exact hregular
  refine ⟨?_, fun k s => ?_⟩
  · exact {
      turns := hchain
      paired := fun w hw k => World.station_of_isChain hchain directory rfl nofun (·.paired) k hw
      calls := fun w hw k =>
        World.station_of_isChain hchain directory rfl ⟨0, List.nil_prefix⟩ (·.callsOnce) k hw
      final := fun k i i' w w' hi hw hw' => World.station_of_final hchain k hi hw hw'
      once := fun k m m' states hstates => World.enters_unique hchain k hstates
      registers := fun k m => World.registers_of_enters hchain hlast k
      running := fun k m w w' hw hw' =>
        World.enters_of_stoppers hchain directory rfl k hw hw' }
  · exact {
      refuses := fun hk hc j context => start_of_started hk hc j context
      starts := fun hk hj context => startsOnce (Step.meanwhile_respond limit depth) hk hj context
      stops := fun hk hj => stop_deeds_of_running hk hj
      idles := fun hk hc => stop_deeds_of_idle hk hc }

end Controller

end EditorClient

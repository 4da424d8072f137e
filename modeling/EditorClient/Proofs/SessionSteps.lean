import EditorClient.Proofs.Evolution

/-! What is kept by all that is done for one session, and what is kept by every step because it is
about sessions only. Each is derived from the few small changes that matter to it. -/

namespace EditorClient

open Procedure

/-- No call at all. -/
def Call.isNone (_ : Call) : Bool := false

/-- A call on the host, which shows a notice or does what it scripted. -/
def Call.isForHost : Call → Bool
  | notify _ | act .. => true
  | _ => false

/-- What a stop asks of the client. -/
def Request.isParting : Request → Bool
  | shutdown | exit | stop _ => true
  | _ => false

namespace Session

/-- What is true of what a stop asks of a session's client, and of the end of its connection. -/
structure Parting (good : ∀ {α : Type}, Procedure α → Prop) (i : Nat) : Prop extends
    Compositional good where
  silent : ∀ {α : Type} {p : Procedure α}, p.Confined Call.isNone → good p
  part : ∀ r : Request, r.isParting = true → good (Procedure.request (.client i r))
  closeWriter : good (closeWriter i)

/-- What is true of all that is asked of a session's client, and of the end of its connection. -/
structure Served (good : ∀ {α : Type}, Procedure α → Prop) (i : Nat) : Prop extends
    Compositional good where
  silent : ∀ {α : Type} {p : Procedure α}, p.Confined Call.isNone → good p
  call : ∀ r, good (Procedure.request (.client i r))
  closeWriter : good (closeWriter i)

variable {good : ∀ {α : Type}, Procedure α → Prop} {i : Nat}

theorem compositional_closeWriter (h : Compositional good)
    (hsilent : ∀ {α : Type} {p : Procedure α}, p.Confined Call.isNone → good p)
    (hclose : ∀ n, good (Procedure.request (.closeWriter n)))
    (hdisconnect : good (modify i fun s => { s with writer := none })) : good (closeWriter i) := by
  refine h.bind (hsilent (confined_find _ _ _)) fun s => ?_
  cases s.writer with
  | none => exact hsilent (confined_pure ())
  | some n => exact h.bind (hclose n) fun _ => hdisconnect

namespace Parting

section Parts

variable (h : Parting good i)
include h

theorem request {r : Request} (hr : r.isParting = true) : good (request i r) :=
  h.bind (h.part r hr) fun _ => h.silent (confined_pure ())

theorem shutDown (name : Value) : good (shutDown i name) :=
  h.recoverOrdinary (h.bind (h.request rfl) fun _ => h.request rfl) fun _ =>
    h.silent (confined_remark _)

/-- The end of a stop, from the closing of the connection. -/
theorem release (p : Posting) : good (do
    Session.closeWriter i
    Session.request i (.stop (← find i).tasks)
    Procedure.post p : Procedure Unit) :=
  h.bind h.closeWriter fun _ => h.bind (h.silent (confined_find _ _ _)) fun _ =>
    h.bind (h.request rfl) fun _ => h.silent (confined_post _)

end Parts

theorem stop (h : Parting good i) (hmark : good (modify i fun s => { s with stopped := true })) :
    good (stop i) := by
  refine h.bind (h.silent (confined_find _ _ _)) fun s => ?_
  split
  · exact h.silent (confined_pure ())
  · refine h.bind hmark fun _ => ?_
    split
    · exact h.bind (h.shutDown _) fun _ => h.release _
    · exact h.release _

end Parting

namespace Served

section Parts

variable (h : Served good i)
include h

theorem parting : Parting good i where
  toCompositional := h.toCompositional
  silent := h.silent
  part := fun r _ => h.call r
  closeWriter := h.closeWriter

theorem request (r : Request) : good (request i r) :=
  h.bind (h.call r) fun _ => h.silent (confined_pure ())

theorem handshake (name : Value) : good (handshake i name) :=
  h.recoverOrdinary (h.bind (h.request _) fun _ => h.request _) fun _ =>
    h.silent (confined_throw _)

theorem changeFile (path : Path) (change : Int) : good (changeFile i path change) := by
  refine h.bind (h.silent (confined_find _ _ _)) fun s =>
    h.bind (h.silent (confined_ofExcept _)) fun watched => ?_
  split
  · split
    · exact h.bind (h.silent (confined_ask _)) fun _ =>
        h.bind (h.silent (confined_ofExcept _)) fun _ =>
        h.bind (h.request _) fun _ => h.silent (confined_pure _)
    · exact h.bind (h.silent (confined_remark _)) fun _ => h.silent (confined_pure _)
  · exact h.silent (confined_pure _)

theorem openTransport (hsocket : ∀ host port, good (openSocket i host port)) (t : Transport) :
    good (openTransport i t) := by
  cases t with
  | socket host port => exact hsocket host port
  | spawn command args directory =>
    exact h.recoverOs (h.request _) fun _ => h.silent (confined_throw _)
  | foreign v => exact h.silent (confined_throw _)

end Parts

theorem start (h : Served good i) (hsocket : ∀ host port, good (openSocket i host port))
    (hstarted : good (modify i fun s => { s with started := true }))
    (hinitialized : good (modify i fun s => { s with initialized := true })) : good (start i) := by
  refine h.bind (h.silent (confined_find _ _ _)) fun s => ?_
  dsimp only
  split
  · exact h.silent (confined_throw _)
  · exact h.bind hstarted fun _ => h.bind (h.openTransport hsocket _) fun _ =>
      h.bind (h.handshake _) fun _ => h.bind hinitialized fun _ => h.silent (confined_post _)

end Served

variable {inv : World → Prop} {rely : World → World → Prop} {P : World → Prop} {i : Nat}

/-- What the calls on behalf of a session keep, and the end of its connection. -/
structure Tended (inv : World → Prop) (rely : World → World → Prop) (P : World → Prop) (i : Nat) :
    Prop where
  quiet : ∀ {α : Type} {p : Procedure α}, p.Quiet → p.Preserves inv rely P
  call : ∀ r, (Procedure.request (.client i r)).Preserves inv rely P
  disconnect : (modify i fun s => { s with writer := none }).Preserves inv rely P

/-- What the beginning of its connection keeps besides. -/
structure Connected (inv : World → Prop) (rely : World → World → Prop) (P : World → Prop)
    (i : Nat) : Prop extends Tended inv rely P i where
  connect : ∀ n, (modify i fun s => { s with writer := some n }).Preserves inv rely P
  setWriter : ∀ n, (Procedure.request (.setWriter i n)).Preserves inv rely P
  readLoop : ∀ n, (Procedure.request (.readLoop i n)).Preserves inv rely P
  addTask : (modify i fun s => { s with tasks := s.tasks + 1 }).Preserves inv rely P

namespace Tended

theorem served (h : Tended inv rely P i) : Served (fun p => p.Preserves inv rely P) i where
  toCompositional := preserves_compositional inv rely P
  silent := fun hp => h.quiet (hp.mono nofun)
  call := h.call
  closeWriter := compositional_closeWriter (preserves_compositional inv rely P)
    (fun hp => h.quiet (hp.mono fun _ hc => by cases hc))
    (fun _ => h.quiet (confined_request rfl)) h.disconnect

theorem handshake (h : Tended inv rely P i) (name : Value) :
    (handshake i name).Preserves inv rely P := h.served.handshake name

theorem changeFile (h : Tended inv rely P i) (path : Path) (change : Int) :
    (changeFile i path change).Preserves inv rely P := h.served.changeFile path change

/-- Only the first stop of a session does anything, so that it is enough to know how things are once
the session is marked as stopped. -/
theorem ensures_stop (h : Tended inv rely P i) {w : World}
    (hw : P (w.modifySession i fun s => { s with stopped := true })) :
    (stop i).Ensures inv rely w fun _ w' => P w' := by
  unfold stop
  simp only [ensures_bind, find, ensures_find, onOk]
  refine ⟨fun x hx => ?_, fun hx => ?_⟩
  · split
    · rename_i hstopped
      rwa [World.modifySession_eq_self fun y hy => ?_] at hw
      rw [hx, Option.some.injEq] at hy
      rw [← hy, ← hstopped]
    · simp only [ensures_bind, modify, ensures_change, onOk]
      split
      · exact Preserves.bind (h.served.parting.shutDown _) (fun _ => h.served.parting.release _) _ hw
      · exact h.served.parting.release _ _ hw
  · rwa [World.modifySession_eq_self fun y hy => ?_] at hw
    rw [hx] at hy
    cases hy

end Tended

namespace Connected

theorem openTransport (h : Connected inv rely P i) (t : Transport) :
    (openTransport i t).Preserves inv rely P :=
  h.served.openTransport (fun _ _ => (h.quiet (confined_connect rfl)).bind fun n =>
    (h.connect n).bind fun _ => (h.setWriter n).bind fun _ => (h.readLoop n).bind fun _ =>
      h.addTask) t

/-- A start that is not refused marks the session first as started and at last as initialized. -/
theorem ensures_start (h : Connected inv rely P i) {w : World}
    (hw : ∀ x, w.sessions[i]? = some x → x.started = false → x.stopped = false →
      P (w.modifySession i fun s => { s with started := true }) ∧
        (modify i fun s => { s with initialized := true }).Preserves inv rely P) :
    (start i).Ensures inv rely w fun _ w' => w' = w ∨ P w' := by
  unfold start
  rw [ensures_bind, find, ensures_find]
  refine ⟨fun x hx => ?_, fun _ => .inl rfl⟩
  dsimp only [onOk]
  split
  · exact .inl rfl
  · rename_i hguard
    simp only [Bool.or_eq_true, not_or, Bool.not_eq_true] at hguard
    obtain ⟨hstarted, hinit⟩ := hw x hx hguard.1 hguard.2
    rw [ensures_bind, modify, ensures_change]
    exact ((h.openTransport _).bind (fun _ => (h.handshake _).bind fun _ => hinit.bind fun _ =>
      h.quiet (confined_post _)) _ hstarted).mono fun _ _ hw' => .inr hw'

end Connected

end Session

/-- What is true of the changes that are about no session and of the end of one goes for all that is
done with controllers and contexts. -/
structure Handling (good : ∀ {α : Type}, Procedure α → Prop) : Prop extends
    Compositional good where
  confined : ∀ {α : Type} {p : Procedure α}, p.Confined Call.isForHost → good p
  apart : ∀ f : World → World, (∀ w, (f w).sessions = w.sessions ∧ (f w).trace = w.trace ∧
    (f w).connections = w.connections) → good (change f)
  hold : ∀ b controller, good (Bootstrap.hold b controller)
  stop : ∀ i, good (Session.stop i)

/-- The steps that neither make, start nor notify a session, apart from quiet ones. -/
def Step.isHandling : Step → Bool
  | newContext .. | subscribe .. | dispose _ | disposeAt .. | disposeContext _ | newBootstrap _
  | deactivate _ | newController _ | stopController _ | stopSession _ => true
  | _ => false

theorem confined_notifyFailure (n : Notifier) (fault : Fault) :
    (Controller.notifyFailure n fault).Confined Call.isForHost := by
  unfold Controller.notifyFailure
  split
  · exact confined_pure ()
  · exact confined_notify (fun _ => rfl) _ _

namespace Handling

variable {good : ∀ {α : Type}, Procedure α → Prop}

section Objects

variable (h : Handling good)
include h

theorem find {α : Type} {sort : ObjectSort} {objects : World → List α} {i : Nat} :
    good (Procedure.find sort objects i) := h.confined (confined_find _ _ _)

theorem remark (r : Remark) : good (Procedure.remark r) := h.confined (confined_remark r)

theorem pure {α : Type} (a : α) : good (Pure.pure a : Procedure α) := h.confined (confined_pure a)

theorem change {β : Type} {f : World → World} {k : Unit → Procedure β} (hf : ∀ w,
    (f w).sessions = w.sessions ∧ (f w).trace = w.trace ∧ (f w).connections = w.connections)
    (hk : ∀ u, good (k u)) : good (Procedure.change f >>= k) := h.bind (h.apart f hf) hk

theorem index {α β : Type} {sort : ObjectSort} {objects : World → List α} {number : Int}
    {k : Nat → Procedure β} (hk : ∀ i, good (k i)) :
    good (Procedure.index sort objects number >>= k) :=
  h.bind (h.confined (confined_index _ _ _)) hk

theorem newController (n : Notifier) : good (newController n) :=
  h.bind (h.confined (confined_ask _)) fun _ => h.change (fun _ => ⟨rfl, rfl, rfl⟩) fun _ => h.pure _

theorem modifyController (k : Nat) (f : Controller → Controller) : good (Controller.modify k f) :=
  h.apart _ fun _ => ⟨rfl, rfl, rfl⟩

theorem notifyFailure (n : Notifier) (fault : Fault) :
    good (Controller.notifyFailure n fault) := h.confined (confined_notifyFailure n fault)

theorem stopSession (k session : Nat) : good (Controller.stopSession k session) :=
  h.change (fun _ => ⟨rfl, rfl, rfl⟩) fun _ => h.stop session

theorem release (k session : Nat) : good (Controller.release k session) :=
  h.recoverOrdinary (h.stopSession k session) fun _ => h.remark _

theorem startFailed (k session : Nat) (name : Value) (fault : Fault) :
    good (Controller.startFailed k session name fault) :=
  h.bind (h.modifyController k _) fun _ => h.bind (h.remark _) fun _ => h.bind h.find fun _ =>
    h.bind (h.notifyFailure _ _) fun _ => h.release k session

theorem startController {session : Nat} (hstart : good (Session.start session)) (k context : Nat) :
    good (Controller.start k session context) := by
  refine h.bind h.find fun c => ?_
  dsimp only
  split
  · exact h.confined (confined_throw _)
  · refine h.bind (h.modifyController k _) fun _ => h.bind h.find fun s =>
      h.bind (h.remark _) fun _ => h.bind (h.recoverOrdinary
        (h.bind (h.change (fun _ => ⟨rfl, rfl, rfl⟩) fun _ => hstart) fun _ => h.pure _)
        fun fault => h.bind (h.startFailed k session s.name fault) fun _ => h.pure _)
      fun started => ?_
    split
    · exact h.bind (h.modifyController k _) fun _ => h.change (fun _ => ⟨rfl, rfl, rfl⟩) fun _ =>
        h.bind (h.remark _) fun _ => h.pure _
    · exact h.pure _

/-- The end of an activation, once its session is made. -/
theorem startNew {session : Nat} (hstart : good (Session.start session)) (n : Notifier)
    (b context : Nat) : good (do
      let controller ← EditorClient.newController n
      Bootstrap.hold b (some controller)
      let _ ← Controller.start controller session context
      Pure.pure controller) :=
  h.bind (h.newController n) fun controller => h.bind (h.hold b _) fun _ =>
    h.bind (h.startController hstart controller context) fun _ => h.pure controller

theorem stopController (k : Nat) : good (Controller.stop k) := by
  refine h.bind h.find fun c => ?_
  split
  · exact h.bind (h.modifyController k _) fun _ => h.bind h.find fun _ =>
      h.bind (h.remark _) fun _ => h.stopSession k _
  · exact h.remark _

theorem dispose (d : Nat) : good (Disposable.dispose d) := by
  refine h.bind h.find fun x => ?_
  split
  · exact h.pure ()
  · refine h.change (fun _ => ⟨rfl, rfl, rfl⟩) fun _ => ?_
    cases x.action with
    | scripted name reaction =>
      exact h.bind (h.confined (confined_request rfl)) fun _ => h.pure ()
    | stopController k => exact h.stopController k

theorem disposeContext (limit c : Nat) : good (Context.dispose limit c) := by
  induction limit with
  | zero =>
    unfold Context.dispose
    refine h.bind h.find fun x => ?_
    split
    · exact h.pure ()
    · exact h.confined (confined_throw _)
  | succ limit ih =>
    unfold Context.dispose
    refine h.bind h.find fun x => ?_
    split
    · exact h.pure ()
    · exact h.change (fun _ => ⟨rfl, rfl, rfl⟩) fun _ =>
        h.bind (h.recoverOrdinary (h.dispose _) fun _ => h.remark _) fun _ => ih

theorem deactivate (b : Nat) : good (Bootstrap.deactivate b) := by
  refine h.bind h.find fun x => ?_
  split
  · exact h.pure ()
  · exact h.bind (h.hold b none) fun _ => h.stopController _

theorem replacePrevious (b : Nat) : good (Bootstrap.replacePrevious b) := by
  refine h.bind h.find fun x => ?_
  split
  · exact h.bind (h.remark _) fun _ => h.deactivate b
  · exact h.pure ()

theorem disposeOne (d : Nat) : good (Host.disposeOne d) :=
  h.bind (h.dispose d) fun _ => h.bind h.find fun _ => h.pure _

theorem sessionMade (j : Nat) : good (Host.sessionMade j) := h.bind h.find fun _ => h.pure _

theorem procedure (limit : Nat) {step : Step} (hs : step.isHandling = true) :
    good (step.procedure limit) := by
  cases step with
  | newContext path choice settings notifier =>
    exact h.bind (h.confined (confined_ofExcept _)) fun _ =>
      h.change (fun _ => ⟨rfl, rfl, rfl⟩) fun _ => h.pure _
  | subscribe name reaction context =>
    refine h.bind (h.confined (confined_ask _)) fun _ =>
      h.change (fun _ => ⟨rfl, rfl, rfl⟩) fun _ => h.change (fun _ => ⟨rfl, rfl, rfl⟩) fun _ => ?_
    cases context with
    | none => exact h.pure _
    | some number =>
      exact h.index fun _ => h.change (fun _ => ⟨rfl, rfl, rfl⟩) fun _ => h.pure _
  | dispose number => exact h.bind (h.index fun _ => h.find) fun _ => h.disposeOne _
  | disposeAt context place =>
    refine h.index fun _ => h.bind (h.bind h.find fun c => ?_) fun _ => h.disposeOne _
    dsimp only
    split
    · exact h.pure _
    · exact h.confined (confined_throw _)
  | disposeContext context =>
    exact h.index fun c => h.bind (h.disposeContext limit c) fun _ => h.pure _
  | newBootstrap number =>
    refine h.bind ?_ fun config => h.change (fun _ => ⟨rfl, rfl, rfl⟩) fun _ => h.pure _
    cases number with
    | none => exact h.pure _
    | some number => exact h.index fun _ => h.find
  | deactivate bootstrap => exact h.index fun b => h.bind (h.deactivate b) fun _ => h.pure _
  | newController notifier => exact h.bind (h.newController _) fun _ => h.pure _
  | stopController controller =>
    exact h.index fun k => h.bind (h.stopController k) fun _ => h.pure _
  | stopSession session => exact h.index fun j => h.bind (h.stop j) fun _ => h.pure _
  | _ => exact absurd hs Bool.false_ne_true

end Objects

end Handling

/-- What is kept by everything that has nothing to do with sessions, and by all that is done to one
as a whole. -/
structure Sessionwise (inv : World → Prop) (rely : World → World → Prop) (P : World → Prop) :
    Prop where
  quiet : ∀ {α : Type} {p : Procedure α}, p.Quiet → p.Preserves inv rely P
  apart : ∀ f : World → World, (∀ w, (f w).sessions = w.sessions ∧ (f w).trace = w.trace) →
    (change f).Preserves inv rely P
  hold : ∀ b controller, (Bootstrap.hold b controller).Preserves inv rely P
  addSession : ∀ name transport options slug,
    (change (addSession ⟨name, transport, options, slug, none, false, false, false, 0⟩)).Preserves
      inv rely P
  madeClient : ∀ i, (happen (.madeClient i)).Preserves inv rely P
  start : ∀ i, (Session.start i).Preserves inv rely P
  stop : ∀ i, (Session.stop i).Preserves inv rely P
  changeFile : ∀ i path change, (Session.changeFile i path change).Preserves inv rely P

namespace Sessionwise

variable {inv : World → Prop} {rely : World → World → Prop} {P : World → Prop}

section Objects

variable (h : Sessionwise inv rely P)
include h

theorem handling : Handling fun p => p.Preserves inv rely P where
  toCompositional := preserves_compositional inv rely P
  confined := fun hp => h.quiet (hp.mono fun c hc => by
    cases c <;> simp_all [Call.isForHost, Call.isPlain])
  apart := fun f hf => h.apart f fun w => ⟨(hf w).1, (hf w).2.1⟩
  hold := h.hold
  stop := h.stop

theorem newSession (name : Value) (transport : Transport) (options : SessionOptions) :
    (newSession name transport options).Preserves inv rely P :=
  (h.quiet (confined_openChannel _)).bind fun _ => (h.quiet (confined_request rfl)).bind fun _ =>
    (h.quiet (confined_ask _)).bind fun _ => Preserves.bind (h.addSession _ _ _ _) fun _ =>
      (h.madeClient _).bind fun _ => preserves_pure _

theorem buildSession (transport : Transport) (options : SessionOptions) :
    (buildSession transport options).Preserves inv rely P :=
  (h.quiet (confined_ofExcept _)).bind fun _ => (h.quiet (confined_remark _)).bind fun _ =>
    h.newSession _ _ _

theorem activate (b context : Nat) : (Bootstrap.activate b context).Preserves inv rely P := by
  refine (h.quiet (confined_find _ _ _)).bind fun x =>
    (h.quiet (confined_find _ _ _)).bind fun c => ?_
  split
  · exact preserves_throw _
  · exact (h.quiet (confined_remark _)).bind fun _ => (h.quiet (quiet_prepare _ _ _)).bind fun _ =>
      Preserves.bind (h.handling.replacePrevious b) fun _ => (h.buildSession _ _).bind fun session =>
      h.handling.startNew (h.start session) _ _ _

theorem index {α β : Type} {sort : ObjectSort} {objects : World → List α} {number : Int}
    {k : Nat → Procedure β} (hk : ∀ i, (k i).Preserves inv rely P) :
    (Procedure.index sort objects number >>= k).Preserves inv rely P :=
  (h.quiet (confined_index _ _ _)).bind hk

end Objects

theorem procedure (h : Sessionwise inv rely P) (limit : Nat) (step : Step) :
    (step.procedure limit).Preserves inv rely P := by
  by_cases hquiet : step.isQuiet = true
  · exact h.quiet (quiet_procedure limit hquiet)
  by_cases hhandling : step.isHandling = true
  · exact h.handling.procedure limit hhandling
  cases step with
  | activate bootstrap context =>
    exact h.index fun b => h.index fun c => (h.activate b c).bind fun _ => preserves_pure _
  | startController controller session context =>
    exact h.index fun k => h.index fun s => h.index fun c =>
      Preserves.bind (h.handling.startController (h.start s) k c) fun _ => preserves_pure _
  | buildSession transport options =>
    exact (h.buildSession _ _).bind fun j => h.handling.sessionMade j
  | newSession name transport options =>
    exact (h.newSession _ _ _).bind fun j => h.handling.sessionMade j
  | startSession session =>
    exact h.index fun j => (h.start j).bind fun _ => preserves_pure _
  | changeFile session path change =>
    rw [Step.procedure]
    split
    · exact h.index fun j => (h.changeFile j path change).bind fun _ => preserves_pure _
    · exact preserves_throw _
  | _ => first | exact absurd rfl hquiet | exact absurd rfl hhandling

end Sessionwise

end EditorClient

import EditorClient.Proofs.Contrast
import EditorClient.Proofs.Preparatory

/-! The operations of the client in two runs that a contrast sets apart. Only the choice of a transport
reads how the host fitted a context and whether the client is debugged; what comes before and after
it takes no notice. -/

namespace EditorClient

open Procedure

/-- A start up to its outcome, without what follows a success: the name of the session and whether it
runs. -/
def Controller.attempt (i session : Nat) : Procedure (Value × Bool) := do
  let c ← find i
  if c.state ≠ .unstarted then throw (.startedFrom c.state)
  modify i fun c => { c with state := .starting }
  let name := (← Session.find session).name
  Procedure.remark (.startingClient name)
  let started ← Procedure.recoverOrdinary
    (do
      startSession i session
      pure true)
    fun fault => do
      startFailed i session name fault
      pure false
  pure (name, started)

/-- What follows the outcome of a start: a session that runs is registered for cleanup. -/
def Controller.settle (i session context : Nat) (outcome : Value × Bool) : Procedure Bool := do
  if outcome.2 then
    modify i fun c => { c with session := some session, state := .running }
    Procedure.change (addSubscription (.stopController i) context)
    Procedure.remark (.clientRunning outcome.1)
  pure outcome.2

theorem Controller.start_eq (i session context : Nat) :
    start i session context = attempt i session >>= settle i session context := by
  unfold start attempt settle
  simp only [LawfulMonad.bind_assoc]
  refine congrArg (Bind.bind (find i)) (funext fun c => ?_)
  split
  · rfl
  · simp only [LawfulMonad.bind_assoc, LawfulMonad.pure_bind]

theorem resolveMode_of_mode? {mode : HostMode} {m : Mode} (h : mode.mode? = some m)
    (debugClient : Bool) : resolveMode mode debugClient = underDebugging debugClient m := by
  unfold resolveMode
  split
  · rename_i m'
    rw [HostMode.mode?, Option.some.injEq] at h
    rw [h]
  · rw [h]

namespace Bootstrap

/-- How an activation begins whose extension path is a path. -/
def opening (i c : Nat) (path : ExtensionPath) : List Event :=
  [.began (.activate (i + 1) (c + 1)), .remarked (.extensionPath path)]

theorem remark_opening (i c : Nat) (path : ExtensionPath) (w : World) :
    (w.happen (.began (.activate (i + 1) (c + 1)))).remark (.extensionPath path) =
      { w with trace := w.trace ++ opening i c path } := by
  simp [World.remark, World.happen, opening]

/-- The transport for a configuration and a context, once the path is known to be one. -/
def arrange (config : Config) (context : Context) : Procedure Transport :=
  match context.path.toPath with
  | .error kindName => throw (.badConfiguration (.extensionPathNotPath kindName))
  | .ok path => do
    Procedure.remark (.extensionPath context.path)
    reporting (prepare config context path)

theorem activate_eq_arrange (i context : Nat) : activate i context = (do
    let b ← find i
    let c ← Context.find context
    let transport ← arrange b.config c
    succession i context (b.config, c, transport)) := by
  rw [activate]
  refine congrArg (Bind.bind (find i)) (funext fun b => ?_)
  refine congrArg (Bind.bind (Context.find context)) (funext fun c => ?_)
  unfold arrange succession
  cases c.path.toPath with
  | error kindName => rfl
  | ok path => simp only [LawfulMonad.bind_assoc]

/-- The part of an activation that replaces what there was before, up to the outcome of the start:
the session, its controller and that outcome. -/
def launch (i : Nat) (config : Config) (notifier : Notifier) (transport : Transport) :
    Procedure (Nat × Nat × Value × Bool) := do
  replacePrevious i
  let session ← buildSession transport config.options
  let controller ← newController notifier
  hold i (some controller)
  let outcome ← Controller.attempt controller session
  pure (session, controller, outcome)

theorem succession_eq_launch (i context : Nat) (config : Config) (c : Context)
    (transport : Transport) : succession i context (config, c, transport) = (do
      let launched ← launch i config c.notifier transport
      let _ ← Controller.settle launched.2.1 launched.1 context launched.2.2
      pure launched.2.1) := by
  simp only [succession, launch, Controller.start_eq, LawfulMonad.bind_assoc, LawfulMonad.pure_bind]

end Bootstrap

namespace Contrast

variable {κ : Contrast} {take : Step → Setting → Setting}

/-! The small procedures. -/

section Small

theorem blind_change {f : World → World} (hf : ∀ {v w}, κ.Worlds v w → κ.Worlds (f v) (f w)) :
    κ.Blind take (change f) := parallel_change fun _ _ hst => hst.change hf

theorem blind_remark (r : Remark) : κ.Blind take (Procedure.remark r) :=
  blind_change fun h => h.remark r

theorem blind_happen (e : Event) : κ.Blind take (Procedure.happen e) :=
  blind_change fun h => h.happen (.same e)

theorem blind_ask {α : Type} {f : World → α} (hf : ∀ {v w}, κ.Worlds v w → f w = f v) :
    κ.Blind take (ask f) := parallel_ask fun _ _ hst => (hf hst.world).symm

theorem blind_find {α : Type} {sort : ObjectSort} {objects : World → List α} {i : Nat}
    (hobjects : ∀ {v w}, κ.Worlds v w → objects w = objects v) :
    κ.Blind take (find sort objects i) := parallel_find fun s t hst => by
  rw [hobjects hst.world]
  cases (objects s.world)[i]? with
  | some a => exact .some rfl
  | none => exact .none

theorem remarking (κ : Contrast) (take : Step → Setting → Setting) :
    Remarking fun p => κ.Blind take p where
  bind := (blind_compositional _ _ _).bind
  pure := fun _ => parallel_pure rfl
  throw := parallel_throw
  remark := blind_remark

theorem blind_modifySession (i : Nat) (f : Session → Session) :
    κ.Blind take (Session.modify i f) := blind_change fun h => h.modifySession i f

theorem blind_findSession (i : Nat) : κ.Blind take (Session.find i) := blind_find (·.sessions)

theorem blind_modifyController (i : Nat) (f : Controller → Controller) :
    κ.Blind take (Controller.modify i f) := blind_change fun h => h.modifyController i f

theorem blind_findController (i : Nat) : κ.Blind take (Controller.find i) :=
  blind_find (·.controllers)

theorem blind_hold (i : Nat) (controller : Option Nat) :
    κ.Blind take (Bootstrap.hold i controller) := blind_change fun h => h.hold i controller

/-- What two runs find at the index of a context. -/
theorem parallel_findContext (i : Nat) : κ.Parallel take
    (fun x y => y = κ.contextAt i x ∧ (κ.context = i → κ.fitted x.fitting))
    (Context.find i) (Context.find i) := parallel_find fun s t hst => by
  rw [hst.world.getElem?_contexts i]
  cases hx : s.world.contexts[i]? with
  | none => exact .none
  | some x => exact .some ⟨rfl, fun hi => hst.world.fitted (hi ▸ hx)⟩

theorem parallel_findBootstrap (i : Nat) : κ.Parallel take
    (fun b c => c = κ.bootstrapAt i b ∧ (κ.bootstrap = i → κ.debugging b.config.debugClient))
    (Bootstrap.find i) (Bootstrap.find i) := parallel_find fun s t hst => by
  rw [hst.world.getElem?_bootstraps i]
  cases hb : s.world.bootstraps[i]? with
  | none => exact .none
  | some b => exact .some ⟨rfl, fun hi => hst.world.debugging (hi ▸ hb)⟩

end Small

/-- What two runs need to have in common for what the client does to take no notice of the contrast. -/
structure Upheld (κ : Contrast) (take : Step → Setting → Setting) : Prop where
  keeps : κ.Keeps take
  post : ∀ p, κ.Blind take (Procedure.post p)
  openChannel : ∀ name, κ.Blind take (openChannel name)

/-! With the same log files, handlers and log directory, logging is the same. -/

section Logging

theorem blind_post (hlogs : κ.logs = Eq) (p : Posting) : κ.Blind take (Procedure.post p) := by
  intro s t hst _ _
  have hlog := hst.world.logState_eq hlogs
  simp only [Procedure.post, run, World.refusal?_congr hlog]
  cases s.world.refusal? p.record with
  | some fault =>
    have hrefused : κ.Settings (s.happen (.refused p)) (t.happen (.refused p)) :=
      ⟨hst.world.happen (.same _), hst.script⟩
    exact ⟨.error fault, hrefused⟩
  | none =>
    have hemits := World.emits_of_levels (congrArg LogState.levels hlog) p.record
    refine ⟨.ok rfl, hst.change fun h => h.post hemits { h with logs := ?_ }⟩
    simp only [World.logState, LogState.mk.injEq] at hlog
    rw [hlogs]
    simp only [World.logState, World.write, World.reached, hlog]

theorem blind_makeLogDirectory (hlogs : κ.logs = Eq) : κ.Blind take makeLogDirectory := by
  refine (blind_happen _).bind_eq fun _ => Parallel.bind_eq
    (blind_ask fun h => congrArg LogState.directory (h.logState_eq hlogs)) fun directory => ?_
  split
  · exact parallel_pure rfl
  · exact parallel_throw _

theorem blind_openChannel (hlogs : κ.logs = Eq) (name : String) :
    κ.Blind take (openChannel name) := by
  have hattach : κ.Blind take (attachFile name (channelSlug name)) := by
    refine (blind_makeLogDirectory hlogs).bind_eq fun path =>
      Parallel.bind_eq (blind_change fun h => { h with logs := ?_ }) fun _ =>
        Parallel.bind_eq (blind_change fun h => { h with logs := ?_ }) fun _ => blind_remark _
    · have hlog := h.logState_eq hlogs
      simp only [World.logState, LogState.mk.injEq] at hlog
      rw [hlogs]
      simp only [World.logState, addHandler, hlog]
    · have hlog := h.logState_eq hlogs
      simp only [World.logState, LogState.mk.injEq] at hlog
      rw [hlogs]
      simp only [World.logState, setLevel, hlog]
  refine Parallel.bind_eq (blind_ask fun h => ?_) fun found => ?_
  · exact congrArg (fun l : LogState => l.handlers.any fun x => x.slug == channelSlug name)
      (h.logState_eq hlogs)
  · split
    · exact parallel_pure rfl
    · exact (hattach.recoverIf fun _ => blind_remark _).bind_eq fun _ => parallel_pure rfl

end Logging

theorem Keeps.upheld (h : κ.Keeps take) (hlogs : κ.logs = Eq) : κ.Upheld take where
  keeps := h
  post := blind_post hlogs
  openChannel := blind_openChannel hlogs

namespace Upheld

variable (h : κ.Upheld take)
include h

theorem requestClient (i : Nat) (r : Request) : κ.Blind take (Session.request i r) := by
  have hqueue : r.queue ≠ .process := by cases r <;> exact nofun
  exact (h.keeps.blind_request hqueue fun _ => rfl).bind_eq fun _ => parallel_pure rfl

theorem connect (host : String) (port : Int) : κ.Blind take (EditorClient.connect host port) := by
  have hcall : κ.Blind take (Procedure.request (.connect host port)) :=
    h.keeps.blind_request (q := .connect) nofun fun _ => rfl
  refine Parallel.bind_eq (hcall.recoverIf fun _ => (blind_remark _).bind_eq fun _ =>
    parallel_throw _) fun _ => ?_
  exact Parallel.bind_eq (blind_change (·.countConnection)) fun _ =>
    Parallel.bind_eq (blind_ask (·.connections)) fun _ =>
      (blind_remark _).bind_eq fun _ => parallel_pure rfl

theorem notify (n : Notifier) (notice : Notice) : κ.Blind take (n.notify notice) := by
  cases n with
  | host =>
    have hcall : κ.Blind take (Procedure.request (.notify notice)) :=
      h.keeps.blind_request (q := .notify notice.severity) nofun fun _ => rfl
    exact hcall.bind_eq fun _ => parallel_pure rfl
  | log logger => exact h.post _
  | absent => exact parallel_throw _

/-! Sessions. -/

theorem openTransport (i : Nat) (t : Transport) : κ.Blind take (Session.openTransport i t) := by
  cases t with
  | socket host port =>
    have hwriter : ∀ n, κ.Blind take (request (.setWriter i n)) := fun _ =>
      h.keeps.blind_request (q := .setWriter) nofun fun _ => rfl
    have hloop : ∀ n, κ.Blind take (request (.readLoop i n)) := fun _ =>
      h.keeps.blind_request (q := .readLoop) nofun fun _ => rfl
    exact (h.connect host port).bind_eq fun _ => (blind_modifySession i _).bind_eq fun _ =>
      (hwriter _).bind_eq fun _ => (hloop _).bind_eq fun _ => blind_modifySession i _
  | spawn command args directory => exact (h.requestClient i _).recoverIf fun _ => parallel_throw _
  | foreign v => exact parallel_throw _

theorem handshake (i : Nat) (name : Value) : κ.Blind take (Session.handshake i name) :=
  Parallel.recoverIf ((h.requestClient i _).bind_eq fun _ => h.requestClient i _) fun _ =>
    parallel_throw _

theorem startSession (i : Nat) : κ.Blind take (Session.start i) := by
  refine (blind_findSession i).bind_eq fun x => ?_
  dsimp only
  split
  · exact parallel_throw _
  · exact (blind_modifySession i _).bind_eq fun _ => (h.openTransport i _).bind_eq fun _ =>
      (h.handshake i _).bind_eq fun _ => (blind_modifySession i _).bind_eq fun _ => h.post _

theorem shutDown (i : Nat) (name : Value) : κ.Blind take (Session.shutDown i name) :=
  Parallel.recoverIf ((h.requestClient i _).bind_eq fun _ => h.requestClient i _) fun _ =>
    blind_remark _

theorem closeWriter (i : Nat) : κ.Blind take (Session.closeWriter i) := by
  refine (blind_findSession i).bind_eq fun x => ?_
  split
  · have hcall : ∀ c, κ.Blind take (Procedure.request (.closeWriter c)) := fun _ =>
      h.keeps.blind_request (q := .closeWriter) nofun fun _ => rfl
    exact (hcall _).bind_eq fun _ => blind_modifySession i _
  · exact parallel_pure rfl

theorem stopSession (i : Nat) : κ.Blind take (Session.stop i) := by
  refine (blind_findSession i).bind_eq fun x => ?_
  split
  · exact parallel_pure rfl
  · refine (blind_modifySession i _).bind_eq fun _ => ?_
    have hrest : ∀ u : Unit, κ.Blind take (do
        Session.closeWriter i
        Session.request i (.stop (← Session.find i).tasks)
        Procedure.post (.sessionStopped x.slug x.name) : Procedure Unit) := fun _ =>
      (h.closeWriter i).bind_eq fun _ => (blind_findSession i).bind_eq fun _ =>
        (h.requestClient i _).bind_eq fun _ => h.post _
    dsimp only
    split
    · exact (h.shutDown i _).bind_eq hrest
    · exact hrest ()

theorem newSession (name : Value) (transport : Transport) (options : SessionOptions) :
    κ.Blind take (EditorClient.newSession name transport options) := by
  have hclient : ∀ slug, κ.Blind take (request (.makeClient slug)) := fun _ =>
    h.keeps.blind_request (q := .makeClient) nofun fun _ => rfl
  exact (h.openChannel _).bind_eq fun _ => (hclient _).bind_eq fun _ =>
    Parallel.bind_eq (blind_ask fun hw => congrArg List.length hw.sessions) fun _ =>
      Parallel.bind_eq (blind_change fun hw => hw.addSession _) fun _ =>
        (blind_happen _).bind_eq fun _ => parallel_pure rfl

theorem buildSession (transport : Transport) (options : SessionOptions) :
    κ.Blind take (EditorClient.buildSession transport options) :=
  (blind_ofExcept _).bind_eq fun _ => (blind_remark _).bind_eq fun _ => h.newSession _ _ _

/-! Controllers. -/

omit h in
theorem newController (n : Notifier) : κ.Blind take (EditorClient.newController n) :=
  Parallel.bind_eq (blind_ask fun hw => congrArg List.length hw.controllers) fun _ =>
    Parallel.bind_eq (blind_change fun hw => hw.addController _) fun _ => parallel_pure rfl

omit h in
theorem callSession {p : Procedure Unit} (hp : κ.Blind take p) (i : Nat) (c : SessionCall) :
    κ.Blind take (do
      change (·.callSession i c)
      p : Procedure Unit) :=
  Parallel.bind_eq (blind_change fun hw => hw.callSession i c) fun _ => hp

theorem startFailed (i session : Nat) (name : Value) (fault : Fault) :
    κ.Blind take (Controller.startFailed i session name fault) := by
  refine (blind_modifyController i _).bind_eq fun _ => (blind_remark _).bind_eq fun _ =>
    (blind_findController i).bind_eq fun c => Parallel.bind_eq ?_ fun _ =>
      (callSession (h.stopSession session) i _).recoverIf fun _ => blind_remark _
  unfold Controller.notifyFailure
  split
  · exact parallel_pure rfl
  · exact h.notify _ _

theorem attempt (i session : Nat) : κ.Blind take (Controller.attempt i session) := by
  refine (blind_findController i).bind_eq fun c => ?_
  dsimp only
  split
  · exact parallel_throw _
  · refine (blind_modifyController i _).bind_eq fun _ => (blind_findSession session).bind_eq fun x =>
      (blind_remark _).bind_eq fun _ => Parallel.bind_eq ?_ fun _ => parallel_pure rfl
    exact Parallel.recoverIf
      ((callSession (h.startSession session) i _).bind_eq fun _ => parallel_pure rfl) fun f =>
      (h.startFailed i session _ f).bind_eq fun _ => parallel_pure rfl

omit h in
theorem settle (i session context : Nat) (outcome : Value × Bool) :
    κ.Blind take (Controller.settle i session context outcome) := by
  unfold Controller.settle
  split
  · refine (blind_modifyController i _).bind_eq fun _ =>
      Parallel.bind_eq (parallel_change fun s t hst => hst.change fun hw => ?_) fun _ =>
        (blind_remark _).bind_eq fun _ => parallel_pure rfl
    unfold addSubscription
    rw [← hw.length_disposables]
    exact (hw.addDisposable (.stopController i)).register context _
  · exact parallel_pure rfl

theorem startController (i session context : Nat) :
    κ.Blind take (Controller.start i session context) := by
  rw [Controller.start_eq]
  exact (h.attempt i session).bind_eq fun outcome => settle i session context outcome

theorem stopController (i : Nat) : κ.Blind take (Controller.stop i) := by
  refine (blind_findController i).bind_eq fun c => ?_
  split
  · exact (blind_modifyController i _).bind_eq fun _ => (blind_findSession _).bind_eq fun _ =>
      (blind_remark _).bind_eq fun _ => callSession (h.stopSession _) i _
  · exact blind_remark _

/-! Bootstraps. -/

theorem deactivate (i : Nat) : κ.Blind take (Bootstrap.deactivate i) := by
  refine (parallel_findBootstrap i).bind fun b c hbc => ?_
  rw [hbc.1, bootstrapAt_controller]
  cases b.controller with
  | none => exact parallel_pure rfl
  | some controller => exact (blind_hold i none).bind_eq fun _ => h.stopController controller

theorem replacePrevious (i : Nat) : κ.Blind take (Bootstrap.replacePrevious i) := by
  refine (parallel_findBootstrap i).bind fun b c hbc => ?_
  rw [hbc.1, bootstrapAt_controller]
  split
  · exact (blind_remark _).bind_eq fun _ => h.deactivate i
  · exact parallel_pure rfl

theorem launch (i : Nat) (config : Config) (notifier : Notifier) (transport : Transport) :
    κ.Blind take (Bootstrap.launch i config notifier transport) :=
  (h.replacePrevious i).bind_eq fun _ => (h.buildSession transport _).bind_eq fun session =>
    (newController notifier).bind_eq fun controller => (blind_hold i _).bind_eq fun _ =>
      (h.attempt controller session).bind_eq fun _ => parallel_pure rfl

theorem succession (i context : Nat) (config : Config) (c : Context) (transport : Transport) :
    κ.Blind take (Bootstrap.succession i context (config, c, transport)) := by
  rw [Bootstrap.succession_eq_launch]
  exact (h.launch i config c.notifier transport).bind_eq fun launched =>
    (settle _ _ _ _).bind_eq fun _ => parallel_pure rfl

omit h in
/-- The choice of a transport takes no notice of the contrast if the check of a dependency takes none. -/
theorem prepareSpawn (hensure : ∀ program module notifier,
      κ.Blind take (ensureDependency program module notifier))
    (config : Config) (context : Context) (path : Path) :
    κ.Blind take (Bootstrap.prepareSpawn config context path) :=
  (blind_ofExcept _).bind_eq fun _ => (blind_remark _).bind_eq fun _ =>
    ((remarking κ take).selectTransport _ _ _ _ _).bind_eq fun _ => (blind_ofExcept _).bind_eq fun _ =>
      (hensure _ _ _).bind_eq fun _ => (blind_remark _).bind_eq fun _ => parallel_pure rfl

omit h in
theorem reporting {p : Procedure Transport} (hp : κ.Blind take p) :
    κ.Blind take (Bootstrap.reporting p) := by
  refine hp.recover fun f => ?_
  dsimp only
  split
  · exact (blind_remark _).bind_eq fun _ => parallel_throw f
  · exact parallel_throw f

omit h in
theorem arrange (hensure : ∀ program module notifier,
      κ.Blind take (ensureDependency program module notifier))
    (config : Config) (context : Context) : κ.Blind take (Bootstrap.arrange config context) := by
  unfold Bootstrap.arrange
  split
  · exact parallel_throw _
  · rename_i path _
    refine (blind_remark _).bind_eq fun _ => reporting ?_
    refine ((remarking κ take).resolveMode _ _).bind_eq fun mode => (blind_remark _).bind_eq fun _ => ?_
    cases mode with
    | development => exact (remarking κ take).selectTransport _ _ _ _ _
    | production => exact prepareSpawn hensure _ _ _

omit h in
theorem parallel_arrange_of_eq (hensure : ∀ program module notifier,
      κ.Blind take (ensureDependency program module notifier)) {config config' : Config}
    {x x' : Context} (h : Bootstrap.arrange config' x' = Bootstrap.arrange config x) :
    κ.Parallel take Eq (Bootstrap.arrange config x) (Bootstrap.arrange config' x') := by
  rw [h]
  exact arrange hensure config x

/-- An activation takes no notice of the contrast if both runs arrange the same transport. -/
theorem activate {i context : Nat}
    (harrange : ∀ b x, (κ.bootstrap = i → κ.debugging b.config.debugClient) →
      (κ.context = context → κ.fitted x.fitting) →
      κ.Parallel take Eq (Bootstrap.arrange b.config x)
        (Bootstrap.arrange (κ.bootstrapAt i b).config (κ.contextAt context x))) :
    κ.Blind take (Bootstrap.activate i context) := by
  rw [Bootstrap.activate_eq_arrange]
  refine (parallel_findBootstrap i).bind fun b b' ⟨hb, hdebug⟩ =>
    (parallel_findContext context).bind fun x x' ⟨hx, hfitted⟩ => ?_
  rw [hb, hx]
  refine (harrange b x hdebug hfitted).bind_eq fun transport => ?_
  have hsuccession : Bootstrap.succession i context
      ((κ.bootstrapAt i b).config, κ.contextAt context x, transport) =
        Bootstrap.succession i context (b.config, x, transport) := by
    unfold Bootstrap.succession
    dsimp only
    rw [contextAt_notifier, bootstrapAt_options]
  rw [hsuccession]
  exact h.succession i context b.config x transport

end Upheld

end Contrast

end EditorClient

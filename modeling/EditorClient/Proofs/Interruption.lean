import EditorClient.Proofs.Account

/-! Faults that are not ordinary. No handler of the client stops them, so that the call that raises
one is the last thing that an operation does. -/

namespace EditorClient

/-- The log directory was asked for, and this is why there is none. -/
def World.Refuses (w w' : World) (f : Fault) : Prop :=
  w' = w.happen .askedLogDirectory ∧ w.logDirectory.refusal = some f

namespace Deed

def Raises (f : Fault) : Deed → Prop
  | update w w' => w.Refuses w' f
  | exchange x => x.result = .error f

def world : Deed → World
  | update _ w' => w'
  | exchange x => x.after.world

end Deed

namespace Procedure

variable {α β : Type}

/-- In this world the procedure does nothing but fail. -/
def FailsAt (w : World) (f : Fault) : Procedure α → Prop
  | fail g => g = f
  | read next => (next w).FailsAt w f
  | _ => False

/-- Whatever raises a fault that is not ordinary is the last thing done. -/
def Interruptible : Procedure α → Prop
  | done _ => True
  | fail _ => True
  | read next => ∀ w, (next w).Interruptible
  | update g next => (∀ w f, w.Refuses (g w) f → f.isOrdinary = false → next.FailsAt (g w) f) ∧
      next.Interruptible
  | call _ next => (∀ w f, f.isOrdinary = false → (next (.error f)).FailsAt w f) ∧
      ∀ r, (next r).Interruptible

variable {w : World} {f : Fault}

theorem FailsAt.bind {p : Procedure α} (hp : p.FailsAt w f) (k : α → Procedure β) :
    (p >>= k).FailsAt w f := by
  change (p.bind k).FailsAt w f
  induction p with
  | fail g => exact hp
  | read next ih => exact ih w hp
  | _ => exact hp.elim

theorem FailsAt.ask {g : World → α} {k : α → Procedure β} (h : (k (g w)).FailsAt w f) :
    (ask g >>= k).FailsAt w f := h

theorem FailsAt.recover {p : Procedure α} {h : Fault → Procedure α} (hp : p.FailsAt w f)
    (hf : h f = fail f) : (p.recover h).FailsAt w f := by
  induction p with
  | fail g =>
    obtain rfl : g = f := hp
    change (h g).FailsAt w g
    rw [hf]
    rfl
  | read next ih => exact ih w hp
  | _ => exact hp.elim

section Run

variable {respond : Call → Setting → Except Fault Reply × Setting}

theorem FailsAt.run {p : Procedure α} (respond : Call → Setting → Except Fault Reply × Setting)
    {s : Setting} (hp : p.FailsAt s.world f) :
    p.run respond s = (.error f, s) ∧ p.deeds respond s = [] := by
  induction p with
  | fail g =>
    obtain rfl : g = f := hp
    exact ⟨rfl, rfl⟩
  | read next ih => exact ih s.world hp
  | _ => exact hp.elim

theorem Interruptible.ends {p : Procedure α} (hp : p.Interruptible) {s : Setting} {d : Deed}
    (hd : d ∈ p.deeds respond s) (hf : d.Raises f) (hord : f.isOrdinary = false) :
    ((p.run respond s).1 = .error f ∧ (p.run respond s).2.world = d.world) ∧
      ∃ before, p.deeds respond s = before ++ [d] := by
  induction p generalizing s with
  | done a => exact absurd hd List.not_mem_nil
  | fail g => exact absurd hd List.not_mem_nil
  | read next ih => exact ih s.world (hp s.world) hd
  | update g next ih =>
    rcases List.mem_cons.mp hd with rfl | hd
    · have hfails := hp.1 s.world f hf hord
      obtain ⟨hrun, hdeeds⟩ := FailsAt.run respond (s := ⟨g s.world, s.script⟩) hfails
      rw [Procedure.run, hrun, deeds, hdeeds]
      exact ⟨⟨rfl, rfl⟩, [], rfl⟩
    · obtain ⟨hrun, before, hbefore⟩ := ih hp.2 hd
      exact ⟨hrun, _ :: before, congrArg _ hbefore⟩
  | call c next ih =>
    rcases List.mem_cons.mp hd with rfl | hd
    · have hr : (respond c s).1 = .error f := hf
      have hfails := hp.1 (respond c s).2.world f hord
      rw [← hr] at hfails
      obtain ⟨hrun, hdeeds⟩ := hfails.run respond
      rw [Procedure.run, deeds, hrun, hdeeds]
      exact ⟨⟨rfl, rfl⟩, [], rfl⟩
    · obtain ⟨hrun, before, hbefore⟩ := ih _ (hp.2 _) hd
      exact ⟨hrun, _ :: before, congrArg _ hbefore⟩

end Run

section Parts

theorem Interruptible.bind {p : Procedure α} {k : α → Procedure β} (hp : p.Interruptible)
    (hk : ∀ a, (k a).Interruptible) : (p >>= k).Interruptible := by
  change (p.bind k).Interruptible
  induction p with
  | done a => exact hk a
  | fail f => trivial
  | read next ih => exact fun w => ih w (hp w)
  | update g next ih => exact ⟨fun w f hw hf => (hp.1 w f hw hf).bind k, ih hp.2⟩
  | call c next ih => exact ⟨fun w f hf => (hp.1 w f hf).bind k, fun r => ih r (hp.2 r)⟩

/-- A handler must let pass what is not ordinary. -/
theorem Interruptible.recover {p : Procedure α} {h : Fault → Procedure α} (hp : p.Interruptible)
    (hh : ∀ f, (h f).Interruptible) (hpass : ∀ f, f.isOrdinary = false → h f = fail f) :
    (p.recover h).Interruptible := by
  induction p with
  | done a => trivial
  | fail f => exact hh f
  | read next ih => exact fun w => ih w (hp w)
  | update g next ih =>
    exact ⟨fun w f hw hf => (hp.1 w f hw hf).recover (hpass f hf), ih hp.2⟩
  | call c next ih =>
    exact ⟨fun w f hf => (hp.1 w f hf).recover (hpass f hf), fun r => ih r (hp.2 r)⟩

theorem Interruptible.recoverOrdinary {p : Procedure α} {h : Fault → Procedure α}
    (hp : p.Interruptible) (hh : ∀ f, (h f).Interruptible) : (p.recoverOrdinary h).Interruptible := by
  refine Interruptible.recover hp (fun f => ?_) fun f hf => if_neg (by simp [hf])
  split
  · exact hh f
  · trivial

theorem Interruptible.recoverOs {p : Procedure α} {h : Fault → Procedure α} (hp : p.Interruptible)
    (hh : ∀ f, (h f).Interruptible) : (p.recoverOs h).Interruptible := by
  refine Interruptible.recover hp (fun f => ?_) fun f hf => if_neg fun hos => ?_
  · split
    · exact hh f
    · trivial
  · have hord : f.isOrdinary = true := FaultKind.isOrdinary_of_isOs hos
    rw [hord] at hf
    cases hf

@[simp]
theorem interruptible_pure (a : α) : (pure a : Procedure α).Interruptible := trivial

@[simp]
theorem interruptible_throw (f : Fault) : (throw f : Procedure α).Interruptible := trivial

@[simp]
theorem interruptible_ask (f : World → α) : (ask f).Interruptible := fun _ => trivial

theorem Interruptible.update {g : World → World} {p : Procedure α}
    (h : ∀ w, (g w).trace ≠ w.trace ++ [.askedLogDirectory]) (hp : p.Interruptible) :
    (Procedure.update g p).Interruptible :=
  ⟨fun w _ hw _ => absurd (congrArg World.trace hw.1) (h w), hp⟩

/-- A change that leaves the trace as it is does not ask for the log directory. -/
theorem interruptible_change {g : World → World} (h : ∀ w, (g w).trace = w.trace) :
    (change g).Interruptible :=
  .update (fun w => by simp [h w]) trivial

theorem Interruptible.happen {e : Event} {p : Procedure α} (he : e ≠ .askedLogDirectory)
    (hp : p.Interruptible) : (Procedure.update (·.happen e) p).Interruptible :=
  .update (fun w => by simpa [World.happen] using he) hp

theorem interruptible_happen {e : Event} (he : e ≠ .askedLogDirectory) :
    (happen e).Interruptible := .happen he trivial

@[simp]
theorem interruptible_remark (r : Remark) : (remark r).Interruptible := interruptible_happen nofun

@[simp]
theorem interruptible_post (p : Posting) : (post p).Interruptible := by
  intro w
  dsimp only
  split
  · exact .happen nofun trivial
  · refine .update (fun w => ?_) trivial
    unfold World.post
    split
    · split <;> simp [World.happen, World.write]
    · simp

@[simp]
theorem interruptible_request (c : Call) : (request c).Interruptible :=
  ⟨fun _ _ _ => rfl, fun r => by cases r <;> trivial⟩

@[simp]
theorem interruptible_ofExcept (r : Except Fault α) : (ofExcept r).Interruptible := by
  cases r <;> trivial

@[simp]
theorem interruptible_find (sort : ObjectSort) (objects : World → List α) (i : Nat) :
    (find sort objects i).Interruptible := by
  intro w
  dsimp only
  split <;> trivial

end Parts

end Procedure

open Procedure

theorem interruptible_makeLogDirectory : makeLogDirectory.Interruptible := by
  refine ⟨fun w f hw _ => ?_, (interruptible_ask _).bind fun directory => ?_⟩
  · have hasked : (w.happen .askedLogDirectory).logDirectory.refusal = some f := hw.2
    refine FailsAt.ask (g := (·.logDirectory)) ?_
    rw [hasked]
    rfl
  · split <;> trivial

theorem interruptible_openChannel (name : String) : (openChannel name).Interruptible := by
  refine (interruptible_ask _).bind fun known => ?_
  cases known with
  | true => exact interruptible_pure _
  | false =>
    exact Interruptible.bind (Interruptible.recoverOs
      (interruptible_makeLogDirectory.bind fun _ =>
        Interruptible.bind (interruptible_change fun _ => rfl) fun _ =>
        Interruptible.bind (interruptible_change fun _ => rfl) fun _ => interruptible_remark _)
      fun _ => interruptible_remark _) fun _ => interruptible_pure _

theorem interruptible_notify (n : Notifier) (notice : Notice) : (n.notify notice).Interruptible := by
  cases n with
  | host => exact (interruptible_request _).bind fun _ => interruptible_pure _
  | log logger => exact interruptible_post _
  | absent => exact interruptible_throw _

theorem interruptible_checking : Checking fun p => p.Interruptible where
  bind := Interruptible.bind
  recoverOs := Interruptible.recoverOs
  pure := interruptible_pure
  fail := fun f _ => interruptible_throw f
  remark := interruptible_remark
  post := interruptible_post
  notice := fun _ => interruptible_request _
  command := fun _ => interruptible_request _

theorem interruptible_remarking : Remarking fun p => p.Interruptible where
  bind := Interruptible.bind
  pure := interruptible_pure
  throw := interruptible_throw
  remark := interruptible_remark

theorem interruptible_connect (host : String) (port : Int) : (connect host port).Interruptible :=
  Interruptible.bind (Interruptible.recoverOs (interruptible_request _) fun _ =>
      (interruptible_remark _).bind fun _ => interruptible_throw _) fun _ =>
    Interruptible.bind (interruptible_change fun _ => rfl) fun _ =>
      (interruptible_ask _).bind fun _ => (interruptible_remark _).bind fun _ => interruptible_pure _

namespace Session

theorem interruptible_modify (i : Nat) (f : Session → Session) : (modify i f).Interruptible :=
  interruptible_change fun _ => rfl

theorem interruptible_request (i : Nat) (r : Request) : (request i r).Interruptible :=
  (Procedure.interruptible_request _).bind fun _ => interruptible_pure _

theorem interruptible_openTransport (i : Nat) (t : Transport) :
    (openTransport i t).Interruptible := by
  cases t with
  | socket host port =>
    exact (interruptible_connect host port).bind fun n =>
      (interruptible_modify i _).bind fun _ =>
      (Procedure.interruptible_request _).bind fun _ =>
      (Procedure.interruptible_request _).bind fun _ => interruptible_modify i _
  | spawn command args directory =>
    exact (interruptible_request i _).recoverOs fun _ => interruptible_throw _
  | foreign v => exact interruptible_throw _

theorem interruptible_handshake (i : Nat) (name : Value) : (handshake i name).Interruptible :=
  Interruptible.recoverOrdinary
    ((interruptible_request i _).bind fun _ => interruptible_request i _) fun _ =>
    interruptible_throw _

theorem interruptible_start (i : Nat) : (start i).Interruptible := by
  refine (interruptible_find _ _ _).bind fun s => ?_
  dsimp only
  split
  · exact interruptible_throw _
  · exact (interruptible_modify i _).bind fun _ => (interruptible_openTransport i _).bind fun _ =>
      (interruptible_handshake i _).bind fun _ => (interruptible_modify i _).bind fun _ =>
      interruptible_post _

theorem interruptible_shutDown (i : Nat) (name : Value) : (shutDown i name).Interruptible :=
  Interruptible.recoverOrdinary
    ((interruptible_request i _).bind fun _ => interruptible_request i _) fun _ =>
    interruptible_remark _

theorem interruptible_closeWriter (i : Nat) : (closeWriter i).Interruptible := by
  refine (interruptible_find _ _ _).bind fun s => ?_
  split
  · exact (Procedure.interruptible_request _).bind fun _ => interruptible_modify i _
  · exact interruptible_pure _

theorem interruptible_stop (i : Nat) : (stop i).Interruptible := by
  have hrelease : ∀ p, (do
      closeWriter i
      request i (.stop (← find i).tasks)
      Procedure.post p : Procedure Unit).Interruptible := fun p =>
    (interruptible_closeWriter i).bind fun _ => (interruptible_find _ _ _).bind fun _ =>
      (interruptible_request i _).bind fun _ => interruptible_post p
  refine (interruptible_find _ _ _).bind fun s => ?_
  split
  · exact interruptible_pure _
  · refine (interruptible_modify i _).bind fun _ => ?_
    split
    · exact (interruptible_shutDown i _).bind fun _ => hrelease _
    · exact hrelease _

theorem interruptible_changeFile (i : Nat) (path : Path) (change : Int) :
    (changeFile i path change).Interruptible := by
  refine (interruptible_find _ _ _).bind fun s => (interruptible_ofExcept _).bind fun watched => ?_
  split
  · split
    · exact (interruptible_ask _).bind fun _ => (interruptible_ofExcept _).bind fun _ =>
        (interruptible_request i _).bind fun _ => interruptible_pure _
    · exact (interruptible_remark _).bind fun _ => interruptible_pure _
  · exact interruptible_pure _

end Session

namespace Controller

theorem interruptible_modify (k : Nat) (f : Controller → Controller) :
    (modify k f).Interruptible := interruptible_change fun _ => rfl

theorem interruptible_callSession {p : Procedure Unit} (hp : p.Interruptible) (k : Nat)
    (c : SessionCall) : (do
      change (·.callSession k c)
      p : Procedure Unit).Interruptible :=
  Interruptible.bind (interruptible_change fun _ => rfl) fun _ => hp

theorem interruptible_startFailed (k j : Nat) (name : Value) (fault : Fault) :
    (startFailed k j name fault).Interruptible := by
  have hnotify : ∀ n, (notifyFailure n fault).Interruptible := by
    intro n
    unfold notifyFailure
    split
    · exact interruptible_pure _
    · exact interruptible_notify _ _
  exact (interruptible_modify k _).bind fun _ => (interruptible_remark _).bind fun _ =>
    (interruptible_find _ _ _).bind fun _ => (hnotify _).bind fun _ =>
    (interruptible_callSession (Session.interruptible_stop j) k _).recoverOrdinary fun _ =>
      interruptible_remark _

theorem interruptible_start (k j c : Nat) : (start k j c).Interruptible := by
  refine (interruptible_find _ _ _).bind fun x => ?_
  dsimp only
  split
  · exact interruptible_throw _
  · refine (interruptible_modify k _).bind fun _ => (interruptible_find _ _ _).bind fun s =>
      (interruptible_remark _).bind fun _ => Interruptible.bind
        (Interruptible.recoverOrdinary
          ((interruptible_callSession (Session.interruptible_start j) k _).bind fun _ =>
            interruptible_pure _)
          fun _ => (interruptible_startFailed k j _ _).bind fun _ => interruptible_pure _)
      fun started => ?_
    split
    · exact (interruptible_modify k _).bind fun _ =>
        Interruptible.bind (interruptible_change fun _ => rfl) fun _ =>
        (interruptible_remark _).bind fun _ => interruptible_pure _
    · exact interruptible_pure _

theorem interruptible_stop (k : Nat) : (stop k).Interruptible := by
  refine (interruptible_find _ _ _).bind fun c => ?_
  split
  · exact (interruptible_modify k _).bind fun _ => (interruptible_find _ _ _).bind fun _ =>
      (interruptible_remark _).bind fun _ =>
        interruptible_callSession (Session.interruptible_stop _) k _
  · exact interruptible_remark _

end Controller

theorem Disposable.interruptible_dispose (d : Nat) : (dispose d).Interruptible := by
  refine (interruptible_find _ _ _).bind fun x => ?_
  split
  · exact interruptible_pure _
  · refine Interruptible.bind (interruptible_change fun _ => rfl) fun _ => ?_
    cases x.action with
    | scripted name reaction => exact (interruptible_request _).bind fun _ => interruptible_pure _
    | stopController k => exact Controller.interruptible_stop k

theorem Context.interruptible_dispose (limit i : Nat) : (dispose limit i).Interruptible := by
  induction limit with
  | zero =>
    unfold dispose
    refine (interruptible_find _ _ _).bind fun c => ?_
    split
    · exact interruptible_pure _
    · exact interruptible_throw _
  | succ limit ih =>
    unfold dispose
    refine (interruptible_find _ _ _).bind fun c => ?_
    split
    · exact interruptible_pure _
    · exact Interruptible.bind (interruptible_change fun _ => rfl) fun _ =>
        Interruptible.bind ((Disposable.interruptible_dispose _).recoverOrdinary fun _ =>
          interruptible_remark _) fun _ => ih

namespace Bootstrap

theorem interruptible_hold (i : Nat) (k : Option Nat) : (hold i k).Interruptible :=
  .update (fun w => by simp [World.hold, World.happen, World.modifyBootstrap]) trivial

theorem interruptible_deactivate (i : Nat) : (deactivate i).Interruptible := by
  refine (interruptible_find _ _ _).bind fun b => ?_
  split
  · exact interruptible_pure _
  · exact (interruptible_hold i _).bind fun _ => Controller.interruptible_stop _

theorem isOrdinary_of_isReported {f : Fault} (h : isReported f = true) : f.isOrdinary = true := by
  have hkind : ∀ k : FaultKind, (k.isA .configuration || k.isA .installation) = true →
      k.isOrdinary = true := by
    intro k hk
    cases k <;> simp_all [FaultKind.isA, FaultKind.isOrdinary, FaultKind.wider]
  exact hkind f.kind h

theorem interruptible_prepare (config : Config) (context : Context) (path : Path) :
    (reporting (prepare config context path)).Interruptible := by
  have hspawn : (prepareSpawn config context path).Interruptible :=
    (interruptible_ofExcept _).bind fun _ => (interruptible_remark _).bind fun _ =>
      Interruptible.bind (interruptible_remarking.selectTransport _ _ _ _ _) fun _ =>
      (interruptible_ofExcept _).bind fun _ =>
      Interruptible.bind (interruptible_checking.ensureDependency _ _ _) fun _ =>
      (interruptible_remark _).bind fun _ => interruptible_pure _
  refine Interruptible.recover (Interruptible.bind (interruptible_remarking.resolveMode _ _)
    fun mode => (interruptible_remark _).bind fun _ => ?_) (fun f => ?_) fun f hf => ?_
  · cases mode with
    | development => exact interruptible_remarking.selectTransport _ _ _ _ _
    | production => exact hspawn
  · dsimp only
    split
    · exact (interruptible_remark _).bind fun _ => interruptible_throw _
    · exact interruptible_throw _
  · have hreport : isReported f = false := by
      refine Bool.eq_false_iff.mpr fun h => ?_
      rw [isOrdinary_of_isReported h] at hf
      cases hf
    rw [if_neg (by simp [hreport])]
    rfl

theorem interruptible_activate (i c : Nat) : (activate i c).Interruptible := by
  have hreplace : (replacePrevious i).Interruptible := by
    refine (interruptible_find _ _ _).bind fun b => ?_
    split
    · exact (interruptible_remark _).bind fun _ => interruptible_deactivate i
    · exact interruptible_pure _
  have hbuild : ∀ transport options, (buildSession transport options).Interruptible :=
    fun transport options => (interruptible_ofExcept _).bind fun _ =>
      (interruptible_remark _).bind fun _ => (interruptible_openChannel _).bind fun _ =>
      (interruptible_request _).bind fun _ => (interruptible_ask _).bind fun j =>
      Interruptible.bind (interruptible_change fun _ => rfl) fun _ =>
      (interruptible_happen (e := .madeClient j) nofun).bind fun _ => interruptible_pure _
  refine (interruptible_find _ _ _).bind fun b => (interruptible_find _ _ _).bind fun x => ?_
  split
  · exact interruptible_throw _
  · exact (interruptible_remark _).bind fun _ => (interruptible_prepare _ _ _).bind fun _ =>
      hreplace.bind fun _ => (hbuild _ _).bind fun j => Interruptible.bind
        ((interruptible_ask _).bind fun _ => Interruptible.bind (interruptible_change fun _ => rfl)
          fun _ => interruptible_pure _) fun k =>
      (interruptible_hold i _).bind fun _ => (Controller.interruptible_start k j c).bind fun _ =>
      interruptible_pure _

end Bootstrap

/-- What the client offers to a host. -/
inductive Operation : {α : Type} → Procedure α → Prop where
  | activate (bootstrap context : Nat) : Operation (Bootstrap.activate bootstrap context)
  | deactivate (bootstrap : Nat) : Operation (Bootstrap.deactivate bootstrap)
  | disposeContext (limit context : Nat) : Operation (Context.dispose limit context)
  | dispose (disposable : Nat) : Operation (Disposable.dispose disposable)
  | startController (controller session context : Nat) :
    Operation (Controller.start controller session context)
  | stopController (controller : Nat) : Operation (Controller.stop controller)
  | startSession (session : Nat) : Operation (Session.start session)
  | stopSession (session : Nat) : Operation (Session.stop session)
  | changeFile (session : Nat) (path : Path) (change : Int) :
    Operation (Session.changeFile session path change)
  | ensureDependency (interpreter module : String) (notifier : Notifier) :
    Operation (ensureDependency interpreter module notifier)
  | isImportable (interpreter module : String) : Operation (isImportable interpreter module)
  | installModule (interpreter module : String) : Operation (installModule interpreter module)
  | runCommand (command : List String) : Operation (runCommand command)
  | connect (host : String) (port : Int) : Operation (connect host port)

theorem Operation.interruptible {α : Type} {p : Procedure α} (hp : Operation p) :
    p.Interruptible := by
  cases hp with
  | activate i c => exact Bootstrap.interruptible_activate i c
  | deactivate i => exact Bootstrap.interruptible_deactivate i
  | disposeContext limit i => exact Context.interruptible_dispose limit i
  | dispose d => exact Disposable.interruptible_dispose d
  | startController k j c => exact Controller.interruptible_start k j c
  | stopController k => exact Controller.interruptible_stop k
  | startSession j => exact Session.interruptible_start j
  | stopSession j => exact Session.interruptible_stop j
  | changeFile j path change => exact Session.interruptible_changeFile j path change
  | ensureDependency interpreter module notifier =>
    exact interruptible_checking.ensureDependency interpreter module notifier
  | isImportable interpreter module => exact interruptible_checking.succeeds _ _
  | installModule interpreter module => exact interruptible_checking.succeeds _ _
  | runCommand command => exact interruptible_checking.runCommand command
  | connect host port => exact interruptible_connect host port

/-- An operation in which something raises a fault that is not ordinary ends with this very fault, and
does nothing more: no call, no notice and no record comes after. -/
theorem Operation.run_of_raises {α : Type} {p : Procedure α} (hp : Operation p)
    (respond : Call → Setting → Except Fault Reply × Setting) (s : Setting) {d : Deed} {f : Fault}
    (hd : d ∈ p.deeds respond s) (hf : d.Raises f) (hord : f.isOrdinary = false) :
    ((p.run respond s).1 = .error f ∧ (p.run respond s).2.world = d.world) ∧
      ∃ before, p.deeds respond s = before ++ [d] :=
  hp.interruptible.ends hd hf hord

/-- The host cancels what waits for the server's answer. -/
def cancelledSetting : Setting :=
  Step.leaveAll 9 9
    [.newContext (.path ⟨.none, []⟩) (.member (.text "development")) .null .host, .newBootstrap none]
    (.unlogged (.once .finishHandshake [] (some (.raised .cancelled ""))))

def Exchange.isCancelledGreeting (x : Exchange) : Bool :=
  match x.call, x.result with
  | .client session .finishHandshake, .error (.raised .cancelled text) => session == 0 && text == ""
  | _, _ => false

theorem Exchange.eq_of_isCancelledGreeting {x : Exchange} (h : x.isCancelledGreeting = true) :
    x.call = .client 0 .finishHandshake ∧ x.result = .error (.raised .cancelled "") := by
  unfold isCancelledGreeting at h
  split at h
  · rename_i hcall hresult
    rw [Bool.and_eq_true, beq_iff_eq, beq_iff_eq] at h
    rw [hcall, hresult, h.1, h.2]
    exact ⟨rfl, rfl⟩
  · cases h

theorem Operation.run_of_handshake_cancelled :
    let p := Bootstrap.activate 0 0
    let respond := Call.respond (Step.leave 9 9)
    (∃ x ∈ p.exchanges respond cancelledSetting,
      x.call = .client 0 .finishHandshake ∧ x.result = .error (.raised .cancelled "")) ∧
    (p.run respond cancelledSetting).1 = .error (.raised .cancelled "") := by
  intro p respond
  obtain ⟨x, hx, hcall, hraises⟩ : ∃ x ∈ p.exchanges respond cancelledSetting,
      x.call = .client 0 .finishHandshake ∧ x.result = .error (.raised .cancelled "") := by
    have hany : (p.exchanges respond cancelledSetting).any Exchange.isCancelledGreeting := by
      decide +kernel
    obtain ⟨x, hx, hcancelled⟩ := List.any_eq_true.mp hany
    exact ⟨x, hx, Exchange.eq_of_isCancelledGreeting hcancelled⟩
  have hd : .exchange x ∈ p.deeds respond cancelledSetting := by
    rw [← exchanges_deeds p cancelledSetting cancelledSetting] at hx
    exact Account.mem_exchanges.mp hx
  exact ⟨⟨x, hx, hcall, hraises⟩,
    (Operation.run_of_raises (.activate 0 0) respond cancelledSetting hd hraises rfl).1.1⟩

end EditorClient

import EditorClient.Proofs.SessionSteps

/-! What is kept by every step, derived from what happens to the owners of a session: the controllers
and the disposables that stop them, and the contexts in which these are registered. -/

namespace EditorClient

open Procedure

def Call.isAction : Call → Bool
  | act .. => true
  | _ => false

/-- A call neither on a session's client nor for an action. -/
def Call.isUsual (c : Call) : Bool := c.isPlain && !c.isAction

/-- The owners and the bootstraps are as they were, and no session is gone. -/
structure World.LeavesOwners (w w' : World) : Prop where
  contexts : w'.contexts = w.contexts
  controllers : w'.controllers = w.controllers
  sessionCalls : w'.sessionCalls = w.sessionCalls
  disposables : w'.disposables = w.disposables
  bootstraps : w'.bootstraps = w.bootstraps
  sessions : w.sessions.length ≤ w'.sessions.length

theorem World.Alike.leavesOwners {w w' : World} (h : w.Alike w') : w.LeavesOwners w' :=
  ⟨h.contexts, h.controllers, h.sessionCalls, h.disposables, h.bootstraps,
    Nat.le_of_eq (congrArg _ h.sessions.symm)⟩

theorem World.leavesOwners_happen (w : World) (e : Event) : w.LeavesOwners (w.happen e) :=
  ⟨rfl, rfl, rfl, rfl, rfl, Nat.le_refl _⟩

theorem World.leavesOwners_addSession (w : World) (x : Session) :
    w.LeavesOwners (addSession x w) := ⟨rfl, rfl, rfl, rfl, rfl, by simp [addSession]⟩

/-- What is true of all that leaves the owners as they are. -/
structure Ownerless (good : ∀ {α : Type}, Procedure α → Prop) : Prop extends
    Compositional good where
  quiet : ∀ {α : Type} {p : Procedure α}, p.Confined Call.isUsual → good p
  request : ∀ c : Call, c.isAction = false → good (Procedure.request c)
  apart : ∀ f : World → World, (∀ w : World, w.LeavesOwners (f w)) → good (change f)

namespace Ownerless

variable {good : ∀ {α : Type}, Procedure α → Prop} (h : Ownerless good)
include h

theorem find {α : Type} {sort : ObjectSort} {objects : World → List α} {i : Nat} :
    good (Procedure.find sort objects i) := h.quiet (confined_find _ _ _)

theorem pure {α : Type} (a : α) : good (Pure.pure a : Procedure α) := h.quiet (confined_pure a)

theorem remark (r : Remark) : good (Procedure.remark r) := h.quiet (confined_remark r)

theorem index {α β : Type} {sort : ObjectSort} {objects : World → List α} {number : Int}
    {k : Nat → Procedure β} (hk : ∀ i, good (k i)) :
    good (Procedure.index sort objects number >>= k) := h.bind (h.quiet (confined_index _ _ _)) hk

theorem modifySession (j : Nat) (f : Session → Session) : good (Session.modify j f) :=
  h.apart _ fun _ => ⟨rfl, rfl, rfl, rfl, rfl, Nat.le_of_eq (List.length_modify ..).symm⟩

theorem happen (e : Event) : good (Procedure.happen e) := h.apart _ fun w => w.leavesOwners_happen e

theorem served (j : Nat) : Session.Served good j where
  toCompositional := h.toCompositional
  silent := fun hp => h.quiet (hp.mono nofun)
  call := fun _ => h.request _ rfl
  closeWriter := Session.compositional_closeWriter h.toCompositional
    (fun hp => h.quiet (hp.mono nofun)) (fun _ => h.request _ rfl) (h.modifySession j _)

theorem startSession (j : Nat) : good (Session.start j) :=
  (h.served j).start (fun _ _ => h.bind (h.quiet (confined_connect rfl)) fun _ =>
    h.bind (h.modifySession j _) fun _ => h.bind (h.request _ rfl) fun _ =>
    h.bind (h.request _ rfl) fun _ => h.modifySession j _) (h.modifySession j _) (h.modifySession j _)

theorem stopSession (j : Nat) : good (Session.stop j) :=
  (h.served j).parting.stop (h.modifySession j _)

theorem newSession (name : Value) (transport : Transport) (options : SessionOptions) :
    good (newSession name transport options) :=
  h.bind (h.quiet (confined_openChannel _)) fun _ => h.bind (h.request _ rfl) fun _ =>
    h.bind (h.quiet (confined_ask _)) fun _ =>
      h.bind (h.apart _ fun w => w.leavesOwners_addSession _) fun _ =>
        h.bind (h.happen _) fun _ => h.pure _

theorem buildSession (transport : Transport) (options : SessionOptions) :
    good (buildSession transport options) :=
  h.bind (h.quiet (confined_ofExcept _)) fun _ => h.bind (h.remark _) fun _ => h.newSession _ _ _

theorem notifyFailure (n : Notifier) (fault : Fault) : good (Controller.notifyFailure n fault) := by
  unfold Controller.notifyFailure
  split
  · exact h.pure ()
  · exact h.quiet (confined_notify (fun _ => rfl) _ _)


/-! The owners' own operations are made of the changes of the owners. -/

theorem newController (hadd : ∀ x, good (change (addController x))) (n : Notifier) :
    good (newController n) :=
  h.bind (h.quiet (confined_ask _)) fun _ => h.bind (hadd _) fun _ => h.pure _

theorem release {k : Nat} (hcall : ∀ c, good (change (·.callSession k c))) (j : Nat) :
    good (Controller.release k j) :=
  h.recoverOrdinary (h.bind (hcall _) fun _ => h.stopSession j) fun _ => h.remark _

theorem startFailed {k : Nat}
    (hfail : good (Controller.modify k fun c => { c with state := .failed }))
    (hcall : ∀ c, good (change (·.callSession k c))) (j : Nat) (name : Value)
    (fault : Fault) : good (Controller.startFailed k j name fault) :=
  h.bind hfail fun _ => h.bind (h.remark _) fun _ => h.bind h.find fun _ =>
    h.bind (h.notifyFailure _ _) fun _ => h.release hcall j

theorem startController (hmodify : ∀ k f, good (Controller.modify k f))
    (hcall : ∀ k c, good (change (·.callSession k c)))
    (hregister : ∀ k c, good (change (addSubscription (.stopController k) c))) (k j c : Nat) :
    good (Controller.start k j c) := by
  refine h.bind h.find fun x => ?_
  dsimp only
  split
  · exact h.quiet (confined_throw _)
  · refine h.bind (hmodify k _) fun _ => h.bind h.find fun x => h.bind (h.remark _) fun _ =>
      h.bind (h.recoverOrdinary
        (h.bind (h.bind (hcall k _) fun _ => h.startSession j) fun _ => h.pure true) fun _ =>
        h.bind (h.startFailed (hmodify k _) (hcall k) j _ _) fun _ => h.pure false) fun started => ?_
    split
    · exact h.bind (hmodify k _) fun _ => h.bind (hregister k c) fun _ =>
        h.bind (h.remark _) fun _ => h.pure _
    · exact h.pure _

theorem stopController (hmodify : ∀ k f, good (Controller.modify k f))
    (hcall : ∀ k c, good (change (·.callSession k c))) (k : Nat) :
    good (Controller.stop k) := by
  refine h.bind h.find fun x => ?_
  split
  · exact h.bind (hmodify k _) fun _ => h.bind h.find fun _ => h.bind (h.remark _) fun _ =>
      h.bind (hcall k _) fun _ => h.stopSession _
  · exact h.remark _

theorem act (haction : ∀ name reaction, good (Procedure.request (.act name reaction)))
    (hstop : ∀ k, good (Controller.stop k)) (a : CleanUp) : good (Disposable.act a) := by
  cases a with
  | scripted name reaction => exact h.bind (haction name reaction) fun _ => h.pure ()
  | stopController k => exact hstop k

theorem dispose
    (hmark : ∀ d, good (change fun w => w.modifyDisposable d fun x => { x with disposed := true }))
    (hact : ∀ a, good (Disposable.act a)) (d : Nat) : good (Disposable.dispose d) := by
  refine h.bind h.find fun x => ?_
  split
  · exact h.pure ()
  · exact h.bind (hmark d) fun _ => hact _

theorem disposeContext
    (htake : ∀ c, good (Context.modify c fun x => { x with subscriptions := x.subscriptions.dropLast }))
    (hdispose : ∀ d, good (Disposable.dispose d)) (limit c : Nat) :
    good (Context.dispose limit c) := by
  induction limit with
  | zero =>
    unfold Context.dispose
    refine h.bind h.find fun x => ?_
    split
    · exact h.pure ()
    · exact h.quiet (confined_throw _)
  | succ limit ih =>
    unfold Context.dispose
    refine h.bind h.find fun x => ?_
    split
    · exact h.pure ()
    · exact h.bind (htake c) fun _ =>
        h.bind (h.recoverOrdinary (hdispose _) fun _ => h.remark _) fun _ => ih

theorem subscribe (hadd : ∀ name reaction, good (change (addDisposable (.scripted name reaction))))
    (hregister : ∀ c d, good (change (register c d))) (name : String) (reaction : Reaction)
    (context : Option Int) : good (Host.subscribe (.scripted name reaction) context) := by
  refine h.bind (h.quiet (confined_ask _)) fun d => h.bind (hadd name reaction) fun _ =>
    h.bind (h.apart _ fun _ => ⟨rfl, rfl, rfl, rfl, rfl, Nat.le_refl _⟩) fun _ => ?_
  cases context with
  | none => exact h.pure _
  | some number => exact h.index fun c => h.bind (hregister c d) fun _ => h.pure _

theorem deactivate (hstop : ∀ k, good (Controller.stop k))
    (hgiveUp : ∀ b, good (Bootstrap.hold b none)) (b : Nat) : good (Bootstrap.deactivate b) := by
  refine h.bind h.find fun x => ?_
  split
  · exact h.pure ()
  · exact h.bind (hgiveUp b) fun _ => hstop _

theorem preparation (b c : Nat) : good (Bootstrap.preparation b c) := by
  have hpreparing : Preparing fun p => p.Confined Call.isUsual :=
    confined_preparing (fun _ => rfl) fun _ => rfl
  exact h.quiet (hpreparing.preparation b c)

theorem replacePrevious (hdeactivate : ∀ b, good (Bootstrap.deactivate b)) (b : Nat) :
    good (Bootstrap.replacePrevious b) := by
  refine h.bind h.find fun x => ?_
  split
  · exact h.bind (h.remark _) fun _ => hdeactivate b
  · exact h.pure ()

theorem activate (hnew : ∀ n, good (EditorClient.newController n))
    (hstart : ∀ k j c, good (Controller.start k j c)) (hstop : ∀ k, good (Controller.stop k))
    (hhold : ∀ b k, good (Bootstrap.hold b k)) (b c : Nat) : good (Bootstrap.activate b c) := by
  rw [Bootstrap.activate_eq]
  exact h.bind (h.preparation b c) fun prepared =>
    h.bind (h.replacePrevious (h.deactivate hstop fun b => hhold b none) b) fun _ =>
    h.bind (h.buildSession _ _) fun j => h.bind (hnew _) fun k =>
    h.bind (hhold b _) fun _ => h.bind (hstart k j c) fun _ => h.pure _

end Ownerless

/-- What is true besides of each way to change the owners. -/
structure Ownerwise (good : ∀ {α : Type}, Procedure α → Prop) : Prop extends
    Ownerless good where
  newContext : ∀ x : Context, x.subscriptions = [] → good (change (addContext x))
  newBootstrap : ∀ config, good (change (addBootstrap ⟨config, none⟩))
  activate : ∀ b c, good (Bootstrap.activate b c)
  deactivate : ∀ b, good (Bootstrap.deactivate b)
  newController : ∀ n, good (newController n)
  startController : ∀ k j c, good (Controller.start k j c)
  stopController : ∀ k, good (Controller.stop k)
  dispose : ∀ d, good (Disposable.dispose d)
  disposeContext : ∀ limit c, good (Context.dispose limit c)
  subscribe : ∀ name reaction context, good (Host.subscribe (.scripted name reaction) context)

namespace Ownerwise

variable {good : ∀ {α : Type}, Procedure α → Prop}

section Parts

variable (h : Ownerwise good)
include h

theorem disposeOne (d : Nat) : good (Host.disposeOne d) :=
  h.bind (h.dispose d) fun _ => h.bind h.find fun _ => h.pure _

theorem sessionMade (j : Nat) : good (Host.sessionMade j) := h.bind h.find fun _ => h.pure _

end Parts

theorem procedure (h : Ownerwise good) (limit : Nat) (step : Step) :
    good (step.procedure limit) := by
  by_cases hquiet : step.isQuiet = true
  · exact h.quiet (confined_procedure (fun _ => rfl) (fun _ => rfl) limit hquiet fun _ _ _ => rfl)
  cases step with
  | newContext path choice settings notifier =>
    exact h.bind (h.quiet (confined_ofExcept _)) fun _ => h.bind (h.newContext _ rfl) fun _ =>
      h.pure _
  | subscribe name reaction context => exact h.subscribe name reaction context
  | dispose number => exact h.bind (h.index fun _ => h.find) fun _ => h.disposeOne _
  | disposeAt context place =>
    refine h.index fun _ => h.bind (h.bind h.find fun c => ?_) fun _ => h.disposeOne _
    dsimp only
    split
    · exact h.pure _
    · exact h.quiet (confined_throw _)
  | disposeContext context =>
    exact h.index fun c => h.bind (h.disposeContext limit c) fun _ => h.pure _
  | newBootstrap number =>
    refine h.bind ?_ fun config => h.bind (h.newBootstrap config) fun _ => h.pure _
    cases number with
    | none => exact h.pure _
    | some number => exact h.index fun _ => h.find
  | activate bootstrap context =>
    exact h.index fun b => h.index fun c => h.bind (h.activate b c) fun _ => h.pure _
  | deactivate bootstrap => exact h.index fun b => h.bind (h.deactivate b) fun _ => h.pure _
  | newController notifier => exact h.bind (h.newController _) fun _ => h.pure _
  | startController controller session context =>
    exact h.index fun k => h.index fun j => h.index fun c =>
      h.bind (h.startController k j c) fun _ => h.pure _
  | stopController controller =>
    exact h.index fun k => h.bind (h.stopController k) fun _ => h.pure _
  | buildSession transport options =>
    exact h.bind (h.buildSession _ _) fun j => h.sessionMade j
  | newSession name transport options =>
    exact h.bind (h.newSession _ _ _) fun j => h.sessionMade j
  | startSession session => exact h.index fun j => h.bind (h.startSession j) fun _ => h.pure _
  | stopSession session => exact h.index fun j => h.bind (h.stopSession j) fun _ => h.pure _
  | changeFile session path change =>
    rw [Step.procedure]
    split
    · exact h.index fun j => h.bind ((h.served j).changeFile path change) fun _ => h.pure _
    · exact h.quiet (confined_throw _)
  | _ => exact absurd rfl hquiet

end Ownerwise

end EditorClient

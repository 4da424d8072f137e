import EditorClient.Proofs.IncidentalSteps

/-! What is kept by every step because it is about output channels only: about where logs are kept, which
channels are called for and which files they have. Sessions matter in that each has a channel. -/

namespace EditorClient

open Procedure

/-- Whether an event tells that a channel is called for, or that logs are to be kept elsewhere. -/
def Event.isOfChannels : Event → Bool
  | began (.setLogDirectory _) | began (.openChannel _) | began (.writeChannel ..)
  | called (.makeClient _) => true
  | _ => false

/-- The name of a session's channel and the slug that was made of it. -/
def Session.channel (x : Session) : String × String := (x.options.channelName, x.slug)

/-- Nothing has been done to channels. -/
structure World.SparesChannels (w w' : World) : Prop where
  handlers : w'.handlers = w.handlers
  levels : w'.levels = w.levels
  directory : w'.logDirectory = w.logDirectory
  sessions : w'.sessions.map Session.channel = w.sessions.map Session.channel
  trace : ∃ es, w'.trace = w.trace ++ es ∧ ∀ e ∈ es, e.isOfChannels = false

namespace World

variable {w w' : World}

theorem sparesChannels_of_eq (hh : w'.handlers = w.handlers) (hl : w'.levels = w.levels)
    (hd : w'.logDirectory = w.logDirectory)
    (hs : w'.sessions = w.sessions) (ht : w'.trace = w.trace) : w.SparesChannels w' :=
  ⟨hh, hl, hd, congrArg _ hs, [], by simp [ht], nofun⟩

theorem sparesChannels_happen (w : World) {e : Event} (he : e.isOfChannels = false) :
    w.SparesChannels (w.happen e) :=
  ⟨rfl, rfl, rfl, rfl, [e], rfl, by simpa using he⟩

theorem sparesChannels_post (w : World) (p : Posting) : w.SparesChannels (w.post p) := by
  unfold post
  split
  · split
    · exact ⟨rfl, rfl, rfl, rfl, [.posted p], rfl, by simp [Event.isOfChannels]⟩
    · exact sparesChannels_of_eq rfl rfl rfl rfl rfl
  · exact sparesChannels_of_eq rfl rfl rfl rfl rfl

theorem sparesChannels_modifySession (w : World) (i : Nat) {f : Session → Session}
    (hf : ∀ x, (f x).channel = x.channel) : w.SparesChannels (w.modifySession i f) := by
  refine ⟨rfl, rfl, rfl, List.ext_getElem? fun j => ?_, [], by simp [modifySession], nofun⟩
  simp only [modifySession, List.getElem?_map, List.getElem?_modify]
  by_cases hij : i = j
  · cases w.sessions[j]? <;> simp [hij, hf]
  · simp [hij]

end World

/-- What is true of all that spares channels, of all calls but the making of a client, and of the making
of a session. -/
structure Channelwise (good : ∀ {α : Type}, Procedure α → Prop) : Prop extends
    Incidental good where
  recoverOrdinary : ∀ {α : Type} {p : Procedure α} {h : Fault → Procedure α}, good p →
    (∀ f, good (h f)) → good (p.recoverOrdinary h)
  request : ∀ c, (Event.called c).isOfChannels = false → good (Procedure.request c)
  spare : ∀ f : World → World, (∀ w, World.SparesChannels w (f w)) → good (change f)
  newSession : ∀ name transport options, good (newSession name transport options)

namespace Channelwise

variable {good : ∀ {α : Type}, Procedure α → Prop}

section Parts

variable (h : Channelwise good)
include h

/-- A change of objects that are not sessions. -/
theorem apart {f : World → World} (hf : ∀ w, (f w).handlers = w.handlers ∧ (f w).levels = w.levels ∧
    (f w).logDirectory = w.logDirectory ∧ (f w).sessions = w.sessions ∧ (f w).trace = w.trace) :
    good (change f) :=
  h.spare f fun w => by
    obtain ⟨hh, hl, hd, hs, ht⟩ := hf w
    exact World.sparesChannels_of_eq hh hl hd hs ht

theorem hold (b : Nat) (k : Option Nat) : good (Bootstrap.hold b k) :=
  h.spare _ fun _ => ⟨rfl, rfl, rfl, rfl, [.held b k], rfl, by simp [Event.isOfChannels]⟩

theorem modifySession (i : Nat) {f : Session → Session} (hf : ∀ x, (f x).channel = x.channel) :
    good (Session.modify i f) := h.spare _ fun w => w.sparesChannels_modifySession i hf

theorem connect (host : String) (port : Int) : good (connect host port) :=
  h.bind (h.recoverOs (h.request _ rfl) fun _ => h.bind (h.remark _) fun _ => h.throw _) fun _ =>
    h.bind (h.apart fun _ => ⟨rfl, rfl, rfl, rfl, rfl⟩) fun _ => h.bind (h.ask _) fun _ =>
    h.bind (h.remark _) fun _ => h.pure _

theorem requestFor (i : Nat) (r : Request) : good (Session.request i r) :=
  h.bind (h.request _ rfl) fun _ => h.pure _

theorem openTransport (i : Nat) (t : Transport) : good (Session.openTransport i t) := by
  cases t with
  | socket host port =>
    exact h.bind (h.connect host port) fun _ => h.bind (h.modifySession i fun _ => rfl) fun _ =>
      h.bind (h.request _ rfl) fun _ => h.bind (h.request _ rfl) fun _ => h.modifySession i fun _ => rfl
  | spawn command args directory => exact h.recoverOs (h.requestFor i _) fun _ => h.throw _
  | foreign v => exact h.throw _

theorem startSession (i : Nat) : good (Session.start i) := by
  refine h.bind (h.find _ _ _) fun s => ?_
  dsimp only
  split
  · exact h.throw _
  · exact h.bind (h.modifySession i fun _ => rfl) fun _ => h.bind (h.openTransport i _) fun _ =>
      h.bind (h.recoverOrdinary (h.bind (h.requestFor i _) fun _ => h.requestFor i _) fun _ =>
        h.throw _) fun _ =>
      h.bind (h.modifySession i fun _ => rfl) fun _ => h.post _

theorem closeWriter (i : Nat) : good (Session.closeWriter i) := by
  refine h.bind (h.find _ _ _) fun s => ?_
  cases s.writer with
  | none => exact h.pure _
  | some n => exact h.bind (h.request _ rfl) fun _ => h.modifySession i fun _ => rfl

theorem stopSession (i : Nat) : good (Session.stop i) := by
  have hrelease : ∀ p, good (do
      Session.closeWriter i
      Session.request i (.stop (← Session.find i).tasks)
      Procedure.post p : Procedure Unit) := fun p =>
    h.bind (h.closeWriter i) fun _ => h.bind (h.find _ _ _) fun _ =>
      h.bind (h.requestFor i _) fun _ => h.post p
  refine h.bind (h.find _ _ _) fun s => ?_
  split
  · exact h.pure _
  · refine h.bind (h.modifySession i fun _ => rfl) fun _ => ?_
    split
    · exact h.bind (h.recoverOrdinary (h.bind (h.requestFor i _) fun _ => h.requestFor i _) fun _ =>
        h.remark _) fun _ => hrelease _
    · exact hrelease _

theorem changeFile (i : Nat) (path : Path) (change : Int) :
    good (Session.changeFile i path change) := by
  refine h.bind (h.find _ _ _) fun s => h.bind (h.ofExcept _) fun watched => ?_
  split
  · split
    · exact h.bind (h.ask _) fun _ => h.bind (h.ofExcept _) fun _ =>
        h.bind (h.requestFor i _) fun _ => h.pure _
    · exact h.bind (h.remark _) fun _ => h.pure _
  · exact h.pure _

theorem buildSession (transport : Transport) (options : SessionOptions) :
    good (buildSession transport options) :=
  h.bind (h.ofExcept _) fun _ => h.bind (h.remark _) fun _ => h.newSession _ _ _

theorem modifyController (k : Nat) (f : Controller → Controller) : good (Controller.modify k f) :=
  h.apart fun _ => ⟨rfl, rfl, rfl, rfl, rfl⟩

theorem callSession {p : Procedure Unit} (hp : good p) (k : Nat) (c : SessionCall) :
    good (do
      change (·.callSession k c)
      p : Procedure Unit) :=
  h.bind (h.apart fun _ => ⟨rfl, rfl, rfl, rfl, rfl⟩) fun _ => hp

theorem startFailed (k i : Nat) (name : Value) (fault : Fault) :
    good (Controller.startFailed k i name fault) := by
  refine h.bind (h.modifyController k _) fun _ => h.bind (h.remark _) fun _ =>
    h.bind (h.find _ _ _) fun c => h.bind ?_ fun _ =>
    h.recoverOrdinary (h.callSession (h.stopSession i) k _) fun _ => h.remark _
  unfold Controller.notifyFailure
  split
  · exact h.pure _
  · exact h.notify _ _

theorem startController (k i c : Nat) : good (Controller.start k i c) := by
  refine h.bind (h.find _ _ _) fun x => ?_
  dsimp only
  split
  · exact h.throw _
  · refine h.bind (h.modifyController k _) fun _ => h.bind (h.find _ _ _) fun s =>
      h.bind (h.remark _) fun _ =>
      h.bind (h.recoverOrdinary
        (h.bind (h.callSession (h.startSession i) k _) fun _ => h.pure _) fun _ =>
        h.bind (h.startFailed k i _ _) fun _ => h.pure _) fun started => ?_
    split
    · exact h.bind (h.modifyController k _) fun _ =>
        h.bind (h.apart fun _ => ⟨rfl, rfl, rfl, rfl, rfl⟩) fun _ => h.bind (h.remark _) fun _ => h.pure _
    · exact h.pure _

theorem stopController (k : Nat) : good (Controller.stop k) := by
  refine h.bind (h.find _ _ _) fun x => ?_
  split
  · exact h.bind (h.modifyController k _) fun _ => h.bind (h.find _ _ _) fun _ =>
      h.bind (h.remark _) fun _ => h.callSession (h.stopSession _) k _
  · exact h.remark _

theorem newController (n : Notifier) : good (newController n) :=
  h.bind (h.ask _) fun _ => h.bind (h.apart fun _ => ⟨rfl, rfl, rfl, rfl, rfl⟩) fun _ => h.pure _

theorem dispose (d : Nat) : good (Disposable.dispose d) := by
  refine h.bind (h.find _ _ _) fun x => ?_
  split
  · exact h.pure _
  · refine h.bind (h.apart fun _ => ⟨rfl, rfl, rfl, rfl, rfl⟩) fun _ => ?_
    cases x.action with
    | scripted name reaction => exact h.bind (h.request _ rfl) fun _ => h.pure _
    | stopController k => exact h.stopController k

theorem disposeContext (limit c : Nat) : good (Context.dispose limit c) := by
  induction limit with
  | zero =>
    unfold Context.dispose
    refine h.bind (h.find _ _ _) fun x => ?_
    split
    · exact h.pure _
    · exact h.throw _
  | succ limit ih =>
    unfold Context.dispose
    refine h.bind (h.find _ _ _) fun x => ?_
    split
    · exact h.pure _
    · exact h.bind (h.apart fun _ => ⟨rfl, rfl, rfl, rfl, rfl⟩) fun _ =>
        h.bind (h.recoverOrdinary (h.dispose _) fun _ => h.remark _) fun _ => ih

theorem disposeOne (d : Nat) : good (Host.disposeOne d) :=
  h.bind (h.dispose d) fun _ => h.bind (h.find _ _ _) fun _ => h.pure _

theorem subscribe (action : CleanUp) (context : Option Int) : good (Host.subscribe action context) := by
  refine h.bind (h.ask _) fun d => h.bind (h.apart fun _ => ⟨rfl, rfl, rfl, rfl, rfl⟩) fun _ =>
    h.bind (h.apart fun _ => ⟨rfl, rfl, rfl, rfl, rfl⟩) fun _ => ?_
  cases context with
  | none => exact h.pure _
  | some number =>
    exact h.bind (h.index _ _ _) fun _ => h.bind (h.apart fun _ => ⟨rfl, rfl, rfl, rfl, rfl⟩) fun _ =>
      h.pure _

theorem deactivate (b : Nat) : good (Bootstrap.deactivate b) := by
  refine h.bind (h.find _ _ _) fun x => ?_
  split
  · exact h.pure _
  · exact h.bind (h.hold b _) fun _ => h.stopController _

theorem activate (b c : Nat) : good (Bootstrap.activate b c) := by
  rw [Bootstrap.activate_eq]
  refine h.bind (h.preparation b c) fun prepared => h.bind (h.bind (h.find _ _ _) fun x => ?_)
    fun _ => h.bind (h.buildSession _ _) fun i => h.bind (h.newController _) fun k =>
    h.bind (h.hold b _) fun _ => h.bind (h.startController k i c) fun _ => h.pure _
  split
  · exact h.bind (h.remark _) fun _ => h.deactivate b
  · exact h.pure _

theorem sessionMade (i : Nat) : good (Host.sessionMade i) :=
  h.bind (h.find _ _ _) fun _ => h.pure _

end Parts

/-- The other steps are about channels from their beginning. -/
theorem procedure (h : Channelwise good) (limit : Nat) {step : Step}
    (hstep : (Event.began step).isOfChannels = false) : good (step.procedure limit) := by
  by_cases hincidental : step.isIncidental = true
  · exact h.toIncidental.procedure limit hincidental
  cases step with
  | connect host port => exact h.bind (h.connect host port) fun _ => h.pure _
  | newContext path choice settings notifier =>
    exact h.bind (h.ofExcept _) fun _ => h.bind (h.apart fun _ => ⟨rfl, rfl, rfl, rfl, rfl⟩) fun _ =>
      h.pure _
  | subscribe name reaction context => exact h.subscribe _ _
  | dispose number =>
    exact h.bind (h.bind (h.index _ _ _) fun _ => h.find _ _ _) fun _ => h.disposeOne _
  | disposeAt context place =>
    refine h.bind (h.index _ _ _) fun _ => h.bind (h.bind (h.find _ _ _) fun c => ?_) fun _ =>
      h.disposeOne _
    dsimp only
    split
    · exact h.pure _
    · exact h.throw _
  | disposeContext context =>
    exact h.bind (h.index _ _ _) fun c => h.bind (h.disposeContext limit c) fun _ => h.pure _
  | newBootstrap number =>
    refine h.bind ?_ fun _ => h.bind (h.apart fun _ => ⟨rfl, rfl, rfl, rfl, rfl⟩) fun _ => h.pure _
    cases number with
    | none => exact h.pure _
    | some number => exact h.bind (h.index _ _ _) fun _ => h.find _ _ _
  | activate bootstrap context =>
    exact h.bind (h.index _ _ _) fun b => h.bind (h.index _ _ _) fun c =>
      h.bind (h.activate b c) fun _ => h.pure _
  | deactivate bootstrap =>
    exact h.bind (h.index _ _ _) fun b => h.bind (h.deactivate b) fun _ => h.pure _
  | newController notifier => exact h.bind (h.newController _) fun _ => h.pure _
  | startController controller session context =>
    exact h.bind (h.index _ _ _) fun k => h.bind (h.index _ _ _) fun i =>
      h.bind (h.index _ _ _) fun c => h.bind (h.startController k i c) fun _ => h.pure _
  | stopController controller =>
    exact h.bind (h.index _ _ _) fun k => h.bind (h.stopController k) fun _ => h.pure _
  | buildSession transport options =>
    exact h.bind (h.buildSession _ _) fun i => h.sessionMade i
  | newSession name transport options =>
    exact h.bind (h.newSession _ _ _) fun i => h.sessionMade i
  | startSession session =>
    exact h.bind (h.index _ _ _) fun i => h.bind (h.startSession i) fun _ => h.pure _
  | stopSession session =>
    exact h.bind (h.index _ _ _) fun i => h.bind (h.stopSession i) fun _ => h.pure _
  | changeFile session path change =>
    rw [Step.procedure]
    split
    · exact h.bind (h.index _ _ _) fun i => h.bind (h.changeFile i path change) fun _ => h.pure _
    · exact h.throw _
  | _ => first | exact absurd rfl hincidental | cases hstep

end Channelwise

end EditorClient

import EditorClient.Proofs.Account
import EditorClient.Proofs.SessionRelease
import EditorClient.Proofs.StepEvolution
import EditorClient.Proofs.StoppedSession

/-! A start that fails for an ordinary reason. The controller has failed for good, and the session is
stopped, provided that the user can be told. -/

namespace EditorClient

/-- The call returns, or fails for an ordinary reason. -/
def Exchange.isOrdinary (x : Exchange) : Bool :=
  match x.result with
  | .ok _ => true
  | .error f => f.isOrdinary

theorem Exchange.isOrdinary_fault {x : Exchange} {f : Fault} (hx : x.isOrdinary = true)
    (hf : x.result = .error f) : f.isOrdinary = true := by
  simpa [isOrdinary, hf] using hx

namespace Account

def Ordinary (a : Account) : Prop := ∀ x ∈ a.exchanges, x.isOrdinary = true

/-- No call changes what is registered for cleanup. -/
def Undisturbed (a : Account) : Prop :=
  ∀ x ∈ a.exchanges, x.after.world.contexts = x.before.world.contexts

/-- The session is this one. -/
def Has (a : Account) (i : Nat) (x : Session) : Prop := a.world.sessions[i]? = some x

/-- The connection, if there is one, has been asked to close. -/
def Closed (a : Account) (writer : Option Nat) : Prop :=
  ∀ n, writer = some n → ∃ y ∈ a.exchanges, y.call = .closeWriter n

/-- A controller in whose hands a session is. -/
structure Holding (k : Nat) (c : Controller) (j : Nat) (contexts : List Context) (a : Account) :
    Prop where
  controller : a.world.controllers[k]? = some c
  session : j < a.world.sessions.length
  contexts : a.Undisturbed → a.world.contexts = contexts

variable {respond : Call → Setting → Except Fault Reply × Setting} {a : Account} {k j : Nat}
  {c : Controller} {contexts : List Context}

theorem Holding.update (h : a.Holding k c j contexts) {f : World → World}
    (hc : (f a.world).controllers = a.world.controllers)
    (hs : a.world.sessions.length ≤ (f a.world).sessions.length)
    (hx : (f a.world).contexts = a.world.contexts) : (a.update f).Holding k c j contexts where
  controller := by rw [world_update, hc, h.controller]
  session := Nat.lt_of_lt_of_le h.session hs
  contexts := fun hu => hx.trans (h.contexts (by simpa [Undisturbed] using hu))

theorem Holding.alike (h : a.Holding k c j contexts) {f : World → World}
    (hf : a.world.Alike (f a.world)) : (a.update f).Holding k c j contexts :=
  h.update hf.controllers (Nat.le_of_eq (by rw [hf.sessions])) hf.contexts

theorem Holding.exchange (h : a.Holding k c j contexts) {call : Call}
    (hr : (a.world.happen (.called call)).Meanwhile (respond call a.setting).2.world)
    (hstarted : c.state ≠ .unstarted) (hrunning : c.state ≠ .running) :
    (a.exchange respond call).Holding k c j contexts where
  controller := hr.evolves.controller h.controller hstarted hrunning
  session := Nat.lt_of_lt_of_le h.session hr.evolves.sessions_length
  contexts := fun hu => by
    simp only [Undisturbed, exchanges_exchange, List.mem_append, List.mem_singleton, or_imp,
      forall_and, forall_eq] at hu
    exact hu.2.trans (h.contexts hu.1)

end Account

open Account Procedure

namespace Session

variable {respond : Call → Setting → Except Fault Reply × Setting} {k j i : Nat} {c : Controller}
  {contexts : List Context}

section Holding

theorem holding_change {f : World → World} (hf : ∀ w, (f w).controllers = w.controllers ∧
    w.sessions.length ≤ (f w).sessions.length ∧ (f w).contexts = w.contexts) :
    (change f).Maintains (.ofAccounts respond) (Holding k c j contexts) := fun a h =>
  (leads_change f _).mpr (h.update (hf a.world).1 (hf a.world).2.1 (hf a.world).2.2)

theorem holding_modify (f : Session → Session) :
    (modify i f).Maintains (.ofAccounts respond) (Holding k c j contexts) :=
  holding_change fun _ => ⟨rfl, by simp [World.modifySession], rfl⟩

theorem holding_callSession (m : Nat) (call : SessionCall) :
    (change (·.callSession m call)).Maintains (.ofAccounts respond) (Holding k c j contexts) :=
  holding_change fun _ => ⟨rfl, Nat.le_refl _, rfl⟩

variable (hmeanwhile : ∀ (call : Call) (s : Setting),
    (s.world.happen (.called call)).Meanwhile (respond call s).2.world)
  (hstarted : c.state ≠ .unstarted) (hrunning : c.state ≠ .running)
include hmeanwhile hstarted hrunning

theorem holding_request (call : Call) :
    (Procedure.request call).Maintains (.ofAccounts respond) (Holding k c j contexts) :=
  fun a h => (leads_request call _).mpr (h.exchange (hmeanwhile call a.setting) hstarted hrunning)

theorem holding_confined {α : Type} {allowed : Call → Bool} {p : Procedure α}
    (hp : p.Confined allowed) : p.Maintains (.ofAccounts respond) (Holding k c j contexts) :=
  hp.maintains (fun _ _ hf h => h.alike hf) fun call _ =>
    holding_request hmeanwhile hstarted hrunning call

theorem holding_served : Served (fun p => p.Maintains (.ofAccounts respond)
    (Holding k c j contexts)) i where
  toCompositional := maintains_compositional _ _
  silent := holding_confined hmeanwhile hstarted hrunning
  call := fun _ => holding_request hmeanwhile hstarted hrunning _
  closeWriter := compositional_closeWriter (maintains_compositional _ _)
    (holding_confined hmeanwhile hstarted hrunning)
    (fun _ => holding_request hmeanwhile hstarted hrunning _) (holding_modify _)

theorem holding_start : (start i).Maintains (.ofAccounts respond) (Holding k c j contexts) := by
  have hgood := maintains_compositional (.ofAccounts respond) (Holding k c j contexts)
  refine (holding_served hmeanwhile hstarted hrunning).start (fun host port => ?_)
    (holding_modify _) (holding_modify _)
  have hconnect : (connect host port).Quiet := confined_connect rfl
  refine hgood.bind (holding_confined hmeanwhile hstarted hrunning hconnect) fun n =>
    hgood.bind (holding_modify _) fun _ => ?_
  exact hgood.bind (holding_request hmeanwhile hstarted hrunning _) fun _ =>
    hgood.bind (holding_request hmeanwhile hstarted hrunning _) fun _ => holding_modify _

theorem holding_release (m i : Nat) : (Controller.release m i).Maintains (.ofAccounts respond)
    (Holding k c j contexts) := by
  have hgood := maintains_compositional (.ofAccounts respond) (Holding k c j contexts)
  refine hgood.recoverOrdinary (hgood.bind (holding_callSession m _) fun _ =>
    (holding_served hmeanwhile hstarted hrunning).parting.stop (holding_modify _)) fun f => ?_
  have hremark : (remark (.releaseFailed f)).Confined Call.isNone := confined_remark _
  exact holding_confined hmeanwhile hstarted hrunning hremark

end Holding

section Stopped

variable {a : Account} {x : Session}

theorem leads_find_bind {α : Type} {k : Session → Procedure α}
    {post : Except Fault α → Account → Prop} (h : a.Has i x) :
    (find i >>= k).Leads (.ofAccounts respond) a post ↔ (k x).Leads (.ofAccounts respond) a post :=
  Procedure.leads_find_bind h

variable (hspares : ∀ (call : Call) (s : Setting),
    (s.world.happen (.called call)).LeavesStopped i (respond call s).2.world)
include hspares

theorem has_exchange (hstop : x.stopped = true) (call : Call) (h : a.Has i x) :
    (a.exchange respond call).Has i x := hspares call a.setting x h hstop

theorem traces_ask (hstop : x.stopped = true) (r : Request) {own : Account → Fault → Prop} :
    (request i r).Traces respond own (Account.Has · i x) :=
  (traces_compositional respond own _).bind
    (traces_request fun _ h => has_exchange hspares hstop _ h) fun _ => traces_pure ()

/-- Only a fault that is not ordinary ends the shutting down of a server. -/
theorem leads_shutDown (hstop : x.stopped = true) (h : a.Has i x) (name : Value) :
    (shutDown i name).Leads (.ofAccounts respond) a fun r a' => a'.Has i x ∧
      ∀ f, r = .error f → f.isOrdinary = false ∧ ∃ y ∈ a'.exchanges, y.result = .error f := by
  have hasked := (traces_compositional respond (fun _ _ => False) (Account.Has · i x)).bind
    (traces_ask hspares hstop .shutdown) fun _ => traces_ask hspares hstop .exit
  rw [shutDown, leads_recoverOrdinary]
  refine (hasked a h).mono fun r a' hr => ?_
  obtain ⟨h', hfault⟩ := hr
  cases r with
  | ok u => exact ⟨h', by simp⟩
  | error f =>
    refine ⟨fun _ => ⟨h', by simp⟩, fun hf => ⟨h', fun g hg => ?_⟩⟩
    rw [← Except.error.inj hg]
    exact ⟨hf, (hfault f rfl).resolve_left id⟩

theorem leads_closeWriter (hstop : x.stopped = true) (h : a.Has i x) :
    (closeWriter i).Leads (.ofAccounts respond) a fun r a' => a'.Closed x.writer ∧
      (∀ u, r = .ok u → a'.Has i { x with writer := none }) ∧
        ∀ f, r = .error f → a'.Has i x ∧ ∃ y ∈ a'.exchanges, y.result = .error f := by
  rw [closeWriter, leads_find_bind h]
  split
  · rename_i n hn
    rw [leads_bind, leads_exchange]
    have hmade : a.made respond (.closeWriter n) ∈
        (a.exchange respond (.closeWriter n)).exchanges := by simp
    have hclosed : (a.exchange respond (.closeWriter n)).Closed x.writer := fun m hm =>
      ⟨_, hmade, congrArg Call.closeWriter (Option.some.inj (hn.symm.trans hm))⟩
    have h' := has_exchange hspares hstop (.closeWriter n) h
    cases hr : (a.made respond (.closeWriter n)).result with
    | error f =>
      exact ⟨hclosed, by simp, fun g hg => ⟨h', _, hmade, by rw [hr, Except.error.inj hg]⟩⟩
    | ok reply =>
      refine ⟨by simpa [Closed] using hclosed, fun _ _ => ?_, by simp⟩
      exact getElem?_modify_self _ h'
  · rename_i hn
    exact ⟨by simp [Closed, hn], fun _ _ => by rwa [← hn], by simp⟩

/-- The end of a stop, once the connection is closed. -/
theorem traces_askToStop (hstop : x.stopped = true) (writer : Option Nat) (p : Posting) :
    (do
      request i (.stop (← find i).tasks)
      Procedure.post p : Procedure Unit).Traces respond (fun _ f => f.isOrdinary = true)
        fun a => a.Has i x ∧ a.Closed writer := by
  have hgood := traces_compositional respond (fun _ f => f.isOrdinary = true)
    fun a => a.Has i x ∧ a.Closed writer
  intro a ha
  rw [leads_find_bind ha.1]
  refine hgood.bind (hgood.bind (traces_request fun a ha => ⟨has_exchange hspares hstop _ ha.1, ?_⟩)
    fun _ => traces_pure ()) (fun _ => traces_post (fun a ha => ?_) (fun _ ha => ?_)
      fun _ _ => World.isOrdinary_of_refusal) a ha
  · intro n hn
    obtain ⟨y, hy, hc⟩ := ha.2 n hn
    exact ⟨y, by simp [hy], hc⟩
  · refine ⟨?_, by simpa [Closed] using ha.2⟩
    rw [Has, world_update, (World.Alike.post a.world p).sessions]
    exact ha.1
  · exact ⟨ha.1, by simpa [Closed] using ha.2⟩

/-- A stop is marked at once. It fails for ordinary reasons only, if its calls do so, and then it has
closed the connection. -/
theorem leads_stop (h : a.Has i x) :
    (stop i).Leads (.ofAccounts respond) a fun r a' => a'.world.Stopped i ∧
      (a'.Ordinary → (∀ f, r = .error f → f.isOrdinary = true) ∧
        (x.stopped = false → a'.Closed x.writer)) := by
  rw [stop, leads_find_bind h]
  split
  · rename_i hstop
    exact ⟨⟨x, h, hstop⟩, fun _ => ⟨by simp, by simp [hstop]⟩⟩
  rw [leads_bind, modify, leads_change]
  have h₁ : (a.update fun w => w.modifySession i fun s => { s with stopped := true }).Has i
      { x with stopped := true } :=
    getElem?_modify_self _ h
  have hrelease : ∀ a₁ p, Account.Has a₁ i { x with stopped := true } →
      (do
        closeWriter i
        request i (.stop (← find i).tasks)
        Procedure.post p : Procedure Unit).Leads (.ofAccounts respond) a₁ fun r a' =>
          a'.world.Stopped i ∧ (a'.Ordinary → (∀ f, r = .error f → f.isOrdinary = true) ∧
            (x.stopped = false → a'.Closed x.writer)) := by
    intro a₁ p h₁
    rw [leads_bind]
    refine (leads_closeWriter hspares rfl h₁).mono fun r a₂ hr => ?_
    obtain ⟨hclosed, hok, herror⟩ := hr
    cases r with
    | error f =>
      obtain ⟨h₂, y, hy, hf⟩ := herror f rfl
      refine ⟨⟨_, h₂, rfl⟩, fun ho => ⟨fun g hg => ?_, fun _ => hclosed⟩⟩
      exact Exchange.isOrdinary_fault (ho y hy) (by rw [hf, Except.error.inj hg])
    | ok u =>
      refine (traces_askToStop hspares rfl x.writer p a₂ ⟨hok u rfl, hclosed⟩).mono
        fun r a₃ hr => ?_
      obtain ⟨⟨h₃, hclosed'⟩, hfault⟩ := hr
      refine ⟨⟨_, h₃, rfl⟩, fun ho => ⟨fun f hf => ?_, fun _ => hclosed'⟩⟩
      rcases hfault f hf with hown | ⟨y, hy, hyf⟩
      · exact hown
      · exact Exchange.isOrdinary_fault (ho y hy) hyf
  dsimp only [onOk]
  split
  · rw [leads_bind]
    refine (leads_shutDown hspares rfl h₁ x.name).mono fun r a₂ hr => ?_
    obtain ⟨h₂, hfault⟩ := hr
    cases r with
    | ok u => exact hrelease a₂ _ h₂
    | error f =>
      -- the shutting down of the server does not end with an ordinary fault
      obtain ⟨hf, y, hy, hyf⟩ := hfault f rfl
      refine ⟨⟨_, h₂, rfl⟩, fun ho => ?_⟩
      rw [Exchange.isOrdinary_fault (ho y hy) hyf] at hf
      cases hf
  · exact hrelease _ _ h₁

end Stopped

end Session

namespace Controller

section Release

variable {respond : Call → Setting → Except Fault Reply × Setting} {a : Account} {k j : Nat}
  {x : Session}

theorem leads_release (hspares : ∀ (call : Call) (s : Setting),
      (s.world.happen (.called call)).LeavesStopped j (respond call s).2.world) (h : a.Has j x) :
    (release k j).Leads (.ofAccounts respond) a fun r a' => a'.world.Stopped j ∧
      (a'.Ordinary → r = .ok () ∧ (x.stopped = false → a'.Closed x.writer)) := by
  have hcalled : (a.update (·.callSession k (.stop j))).Has j x := h
  rw [release, leads_recoverOrdinary, stopSession, leads_bind, leads_change]
  refine (Session.leads_stop hspares hcalled).mono fun r a' hr => ?_
  obtain ⟨hstopped, hr⟩ := hr
  cases r with
  | ok u => exact ⟨hstopped, fun ho => ⟨rfl, (hr ho).2⟩⟩
  | error f =>
    refine ⟨fun _ => ⟨hstopped, fun ho => ⟨rfl, ?_⟩⟩, fun hf => ⟨hstopped, fun ho => ?_⟩⟩
    · simp only [Ordinary, Closed, Passage.update_ofAccounts, exchanges_update] at ho hr ⊢
      exact (hr ho).2
    · rw [(hr ho).1 f rfl] at hf
      cases hf

end Release

section GoOn

variable {σ : Type} {way : Passage σ} {s : σ} {post : Except Fault Bool → σ → Prop} {k j : Nat}
  {n : Notifier} {x : Session}

/-- The start of a session for a controller that is marked, and what the controller makes of it. -/
def goOn (k j context : Nat) (name : Value) : Procedure Bool := do
  let started ← Procedure.recoverOrdinary
    (do
      startSession k j
      pure true)
    fun fault => do
      startFailed k j name fault
      pure false
  if started then
    modify k fun c => { c with session := some j, state := .running }
    Procedure.change (addSubscription (.stopController k) context)
    Procedure.remark (.clientRunning name)
  pure started

/-- No call is made before the session is started. -/
theorem leads_goOn
    (hk : (way.world s).controllers[k]? = some ⟨n, none, .unstarted⟩)
    (hj : (way.world (way.update (fun w => w.modifyController k fun c =>
      { c with state := .starting }) s)).sessions[j]? = some x) (context : Nat) :
    (start k j context).Leads way s post ↔
      (goOn k j context x.name).Leads way (way.update (·.remark (.startingClient x.name))
        (way.update (fun w => w.modifyController k fun c => { c with state := .starting }) s))
        post := by
  rw [start, find, Procedure.leads_find_bind hk]
  dsimp only
  rw [if_neg (by simp), leads_bind, modify, leads_change]
  dsimp only [onOk]
  rw [Session.find, Procedure.leads_find_bind hj, leads_bind, leads_remark]
  rfl

end GoOn

/-- The setting in which a controller starts its session. -/
def starting (k : Nat) (name : Value) (s : Setting) : Setting :=
  ⟨(s.world.modifyController k fun c => { c with state := .starting }).remark (.startingClient name),
    s.script⟩

/-- The setting in which the failure of a start is shown. -/
def failing (k : Nat) (name : Value) (fault : Fault) (s : Setting) : Setting :=
  ⟨(s.world.modifyController k fun c => { c with state := .failed }).remark
    (.startFailed name fault), s.script⟩

variable {respond : Call → Setting → Except Fault Reply × Setting} {k j : Nat} {s t : Setting}
  {n : Notifier} {x : Session} {fault : Fault}

/-- While its session is started, a controller is left alone. -/
theorem holding_started (hmeanwhile : ∀ (call : Call) (s : Setting),
      (s.world.happen (.called call)).Meanwhile (respond call s).2.world)
    (hk : s.world.controllers[k]? = some ⟨n, none, .unstarted⟩)
    (hj : s.world.sessions[j]? = some x) :
    (Account.mk ((startSession k j).run respond (starting k x.name s)).2
      (((Account.update ⟨s, []⟩ fun w => w.modifyController k fun c =>
          { c with state := .starting }).update (·.remark (.startingClient x.name))).deeds ++
        (startSession k j).deeds respond (starting k x.name s))).Holding k ⟨n, none, .starting⟩ j
          s.world.contexts := by
  have hstarting : (Account.update ⟨s, []⟩ fun w =>
      w.modifyController k fun c => { c with state := .starting }).Holding k ⟨n, none, .starting⟩ j
        s.world.contexts :=
    ⟨getElem?_modify_self _ hk, (List.getElem?_eq_some_iff.mp hj).1, fun _ => rfl⟩
  have hremarked := hstarting.alike (f := (·.remark (.startingClient x.name))) (.happen _ rfl)
  exact (leads_accounts _ _ _).mp ((maintains_compositional _ _).bind
    (Session.holding_callSession k (.start j))
    (fun _ => Session.holding_start hmeanwhile (by simp) (by simp)) _ hremarked)

/-- What a start whose session fails comes to, by what comes of telling the user. -/
structure Failed (respond : Call → Setting → Except Fault Reply × Setting) (k j : Nat)
    (n : Notifier) (contexts : List Context) (told : Except Fault Unit × Setting)
    (r : Except Fault Bool) (a : Account) : Prop where
  controller : a.world.controllers[k]? = some ⟨n, none, .failed⟩
  contexts : a.Undisturbed → a.world.contexts = contexts
  inactive : r ≠ .ok true
  untold : ∀ f, told.1 = .error f → r = .error f ∧ a.setting = told.2
  told : told.1 = .ok () → a.Ordinary → r = .ok false ∧
    a.setting = ((release k j).run respond told.2).2 ∧ a.world.Stopped j ∧
      ∀ y m, told.2.world.sessions[j]? = some y → y.stopped = false → y.writer = some m →
        ∃ e ∈ (release k j).exchanges respond told.2, e.call = .closeWriter m

section Start

variable (hmeanwhile : ∀ (call : Call) (s : Setting),
    (s.world.happen (.called call)).Meanwhile (respond call s).2.world)
  (hspares : ∀ (call : Call) (s : Setting),
    (s.world.happen (.called call)).LeavesStopped j (respond call s).2.world)
include hmeanwhile hspares

/-- From the telling of the user on, if that succeeds. -/
theorem leads_released {contexts : List Context} {a : Account}
    (h : a.Holding k ⟨n, none, .failed⟩ j contexts) :
    (release k j >>= fun _ => pure false : Procedure Bool).Leads (.ofAccounts respond) a
      (Failed respond k j n contexts (.ok (), a.setting)) := by
  have hkept := (leads_accounts _ _ _).mp
    (Session.holding_release hmeanwhile (by simp) (by simp) k j _ h)
  obtain ⟨y, hy⟩ : ∃ y, Account.Has ⟨a.setting, []⟩ j y :=
    ⟨_, List.getElem?_eq_getElem h.session⟩
  -- what the release does by itself, apart from what was done before it
  have hown := (leads_runs _ _ _).mp (leads_release (k := k) hspares hy)
  have hordinary : ∀ u, Ordinary ⟨u, a.deeds ++ (release k j).deeds respond a.setting⟩ →
      Ordinary ⟨u, (release k j).deeds respond a.setting⟩ := fun u ho e he =>
    ho e (by rw [Account.exchanges, List.filterMap_append]; exact List.mem_append_right _ he)
  rw [leads_bind, leads_accounts]
  generalize hrun : (release k j).run respond a.setting = r at hkept hown ⊢
  obtain ⟨r, u⟩ := r
  obtain ⟨hstopped, hown⟩ := hown
  cases r with
  | error f =>
    refine Failed.mk hkept.controller hkept.contexts (by simp) (fun g hg => ?_) fun _ ho => ?_
    · cases hg
    · cases (hown (hordinary u ho)).1
  | ok _ =>
    refine Failed.mk hkept.controller hkept.contexts (by simp) (fun g hg => ?_) fun _ ho =>
      ⟨rfl, by rw [hrun], hstopped, fun y' m hy' hlive hm => ?_⟩
    · cases hg
    · obtain rfl : y = y' := Option.some.inj (hy.symm.trans hy')
      obtain ⟨e, he, hclose⟩ := (hown (hordinary u ho)).2 hlive m hm
      exact ⟨e, by rwa [exchanges_deeds] at he, hclose⟩

/-- From the failure of the session on. -/
theorem leads_startFailed {contexts : List Context} {a : Account}
    (h : a.Holding k ⟨n, none, .starting⟩ j contexts) (name : Value) :
    (do
      startFailed k j name fault
      pure false : Procedure Bool).Leads (.ofAccounts respond) a
        (Failed respond k j n contexts
          ((notifyFailure n fault).run respond (failing k name fault a.setting))) := by
  have hcontroller := getElem?_modify_self
    (fun c : Controller => { c with state := .failed }) h.controller
  have hfailed : (a.update fun w =>
      w.modifyController k fun c => { c with state := .failed }).Holding k ⟨n, none, .failed⟩ j
        contexts := ⟨hcontroller, h.session,
      fun hu => h.contexts (by simpa [Undisturbed] using hu)⟩
  have hremarked := hfailed.alike (f := (·.remark (.startFailed name fault))) (.happen _ rfl)
  have htold := (leads_accounts _ _ _).mp
    (Session.holding_confined hmeanwhile (by simp) (by simp) (confined_notifyFailure n fault) _
      hremarked)
  rw [leads_bind, startFailed, leads_bind, modify, leads_change]
  dsimp only [onOk]
  rw [leads_bind, leads_remark]
  dsimp only [onOk]
  rw [find, Procedure.leads_find_bind hremarked.controller, leads_bind, leads_accounts]
  change Holding _ _ _ _
    (.mk ((notifyFailure n fault).run respond (failing k name fault a.setting)).2 _) at htold
  change onOk _ _ ((notifyFailure n fault).run respond (failing k name fault a.setting)).1
    (Account.mk ((notifyFailure n fault).run respond (failing k name fault a.setting)).2 _)
  generalize (notifyFailure n fault).run respond (failing k name fault a.setting) = told
    at htold ⊢
  obtain ⟨r, u⟩ := told
  cases r with
  | error f =>
    refine Failed.mk htold.controller htold.contexts (by simp) (fun g hg => ⟨?_, rfl⟩) (by simp)
    rw [← Except.error.inj hg]
  | ok u =>
    dsimp only [onOk]
    exact (leads_bind _ _ _).mp (leads_released hmeanwhile hspares htold)

theorem leads_start (hk : s.world.controllers[k]? = some ⟨n, none, .unstarted⟩)
    (hj : s.world.sessions[j]? = some x)
    (hfault : (startSession k j).run respond (starting k x.name s) = (.error fault, t))
    (hord : fault.isOrdinary = true) (c : Nat) :
    (start k j c).Leads (.ofAccounts respond) ⟨s, []⟩ (Failed respond k j n s.world.contexts
      ((notifyFailure n fault).run respond (failing k x.name fault t))) := by
  have hfailed := holding_started hmeanwhile hk hj
  rw [leads_goOn hk hj, goOn, leads_bind, leads_recoverOrdinary, leads_bind, leads_accounts]
  change onOk _ _ ((startSession k j).run respond (starting k x.name s)).1
    (Account.mk ((startSession k j).run respond (starting k x.name s)).2 _)
  rw [hfault] at hfailed ⊢
  refine ⟨fun _ => ?_, fun hn => absurd (hord.symm.trans hn) (by simp)⟩
  refine (leads_startFailed hmeanwhile hspares hfailed x.name).mono fun r a hr => ?_
  cases r with
  | error f => exact hr
  | ok started =>
    cases started with
    | true => exact absurd rfl hr.inactive
    | false => exact hr

end Start

/-- A start whose session fails for an ordinary reason leaves the controller failed and nothing
registered. It answers that no session runs and has stopped the session, just if the user can be told;
else it ends with the fault of the notice. -/
theorem start_of_fault (limit depth : Nat)
    (hk : s.world.controllers[k]? = some ⟨n, none, .unstarted⟩)
    (hj : s.world.sessions[j]? = some x)
    (hfault : (startSession k j).run (Call.respond (Step.leave limit depth)) (starting k x.name s) =
      (.error fault, t))
    (hord : fault.isOrdinary = true) (c : Nat)
    (hcalls : ∀ e ∈ (start k j c).exchanges (Call.respond (Step.leave limit depth)) s,
      e.isOrdinary = true) :
    let respond := Call.respond (Step.leave limit depth)
    let told := (notifyFailure n fault).run respond (failing k x.name fault t)
    let r := (start k j c).run respond s
    r.2.world.controllers[k]? = some ⟨n, none, .failed⟩ ∧
      ((∀ e ∈ (start k j c).exchanges respond s,
        e.after.world.contexts = e.before.world.contexts) → r.2.world.contexts = s.world.contexts) ∧
      (told.1 = .ok () → r.1 = .ok false ∧ r.2 = ((release k j).run respond told.2).2 ∧
        r.2.world.Stopped j ∧
        ∀ y m, told.2.world.sessions[j]? = some y → y.stopped = false → y.writer = some m →
          ∃ e ∈ (release k j).exchanges respond told.2, e.call = .closeWriter m) ∧
      ∀ f, told.1 = .error f → r = (.error f, told.2) := by
  intro respond told r
  have hlead : (start k j c).Leads (.ofAccounts respond) ⟨s, []⟩
      (Failed respond k j n s.world.contexts told) :=
    leads_start (Step.meanwhile_respond limit depth) (Step.leavesStopped_respond limit depth j) hk hj
      hfault hord c
  have hfailed := (leads_runs _ _ _).mp hlead
  refine ⟨hfailed.controller, fun hu => hfailed.contexts ?_, fun hok => ?_, fun f hf => ?_⟩
  · rwa [Undisturbed, exchanges_deeds]
  · exact hfailed.told hok (by rwa [Ordinary, exchanges_deeds])
  · obtain ⟨hr, hs⟩ := hfailed.untold f hf
    exact Prod.ext hr hs

/-- A controller, a session and a context have been made, and nothing is started. -/
def unstartedSetting (script : Script) : Setting :=
  Step.leaveAll 9 9
    [.newContext (.path ⟨.none, []⟩) (.member (.text "development")) .null .host, .newController .host]
    (.withSession script)

/-- The server will refuse the handshake. -/
def refusedStart : Setting := unstartedSetting (.once .beginHandshake [] (some (.raised .os "")))

theorem start_of_handshake_refused :
    (∀ e ∈ (start 0 0 0).exchanges (Call.respond (Step.leave 9 9)) refusedStart,
      e.isOrdinary = true) ∧
    ((start 0 0 0).run (Call.respond (Step.leave 9 9)) refusedStart).1 = .ok false ∧
    ((start 0 0 0).run (Call.respond (Step.leave 9 9)) refusedStart).2.world.Stopped 0 := by
  have hk : refusedStart.world.controllers[0]? = some ⟨.host, none, .unstarted⟩ := rfl
  obtain ⟨x, hx, hname⟩ : ∃ x, refusedStart.world.sessions[0]? = some x ∧ x.name = .text "s" :=
    ⟨_, rfl, rfl⟩
  have hfault : (startSession 0 0).run (Call.respond (Step.leave 9 9))
      (starting 0 (.text "s") refusedStart) =
        (.error (.handshakeFailed (.text "s") (.raised .os "")), _) := Prod.ext rfl rfl
  have htold : ((notifyFailure .host (.handshakeFailed (.text "s") (.raised .os ""))).run
      (Call.respond (Step.leave 9 9)) (failing 0 (.text "s") (.handshakeFailed (.text "s")
        (.raised .os "")) ((startSession 0 0).run (Call.respond (Step.leave 9 9))
          (starting 0 (.text "s") refusedStart)).2)).1 = .ok () := rfl
  have hcalls : ∀ e ∈ (start 0 0 0).exchanges (Call.respond (Step.leave 9 9)) refusedStart,
      e.isOrdinary = true := by decide +kernel
  rw [← hname] at hfault htold
  obtain ⟨hr, _, hstopped, _⟩ := (start_of_fault 9 9 hk hx hfault rfl 0 hcalls).2.2.1 htold
  exact ⟨hcalls, hr, hstopped⟩

/-- The server will refuse the handshake, and the user cannot be told. -/
def mutedStart : Setting :=
  unstartedSetting ((Script.once .beginHandshake [] (some (.raised .os ""))).append (.notify .error)
    [.mk [] (some (.raised .runtime "")) 0 []])

/-- The connection stays open. -/
theorem exists_unreleased_muted :
    mutedStart.world.controllers[0]? = some ⟨.host, none, .unstarted⟩ ∧
    ((startSession 0 0).run (Call.respond (Step.leave 9 9))
      (starting 0 (.text "s") mutedStart)).1 =
        .error (.handshakeFailed (.text "s") (.raised .os "")) ∧
    (∀ e ∈ (start 0 0 0).exchanges (Call.respond (Step.leave 9 9)) mutedStart,
      e.isOrdinary = true) ∧
    ((start 0 0 0).run (Call.respond (Step.leave 9 9)) mutedStart).1 =
      .error (.raised .runtime "") ∧
    ¬((start 0 0 0).run (Call.respond (Step.leave 9 9)) mutedStart).2.world.Stopped 0 :=
  ⟨rfl, rfl, by decide +kernel, rfl, by decide +kernel⟩

end Controller

end EditorClient

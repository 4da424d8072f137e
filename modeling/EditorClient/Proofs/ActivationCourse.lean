import EditorClient.Proofs.CheckedServer
import EditorClient.Proofs.RunningSession
import EditorClient.Proofs.StartCourse
import EditorClient.Proofs.TameScript

/-! The course of an activation during whose calls nothing else happens. Whatever its calls come to, it
answers with a new controller; the new session runs just if none of them failed. -/

namespace EditorClient

open Procedure

def World.Furnished (cs : List Context) (m : Nat) (w : World) : Prop :=
  w.contexts = cs ∧ w.bootstraps.length = m

section Furnished

variable {cs : List Context} {m : Nat}

theorem furnished_change {f : World → World} (hc : ∀ w, (f w).contexts = w.contexts)
    (hb : ∀ w, (f w).bootstraps.length = w.bootstraps.length) :
    (change f).Maintains .lone (·.world.Furnished cs m) :=
  fun _ h => ⟨(hc _).trans h.1, (hb _).trans h.2⟩

theorem furnished_request (c : Call) :
    (request c).Maintains .lone (·.world.Furnished cs m) :=
  fun _ h => (leads_request c _).mpr fun _ _ => h

theorem furnished_confined {α : Type} {allowed : Call → Bool} {p : Procedure α}
    (hp : p.Confined allowed) : p.Maintains .lone (·.world.Furnished cs m) :=
  hp.maintains (fun _ _ hf h => ⟨hf.contexts.trans h.1, by rw [← h.2]; exact congrArg _ hf.bootstraps⟩)
    fun c _ => furnished_request c

theorem furnished_parting (cs : List Context) (m j : Nat) :
    Session.Parting (fun p => p.Maintains .lone (·.world.Furnished cs m)) j where
  toCompositional := maintains_compositional _ _
  silent := furnished_confined
  part := fun _ _ => furnished_request _
  closeWriter := Session.compositional_closeWriter (maintains_compositional _ _) furnished_confined
    (fun _ => furnished_request _) (furnished_change (fun _ => rfl) fun _ => rfl)

theorem furnished_replacePrevious (i : Nat) :
    (Bootstrap.replacePrevious i).Maintains .lone (·.world.Furnished cs m) := by
  have hgood := maintains_compositional .lone (·.world.Furnished cs m)
  have hfind : ∀ {α : Type} {sort : ObjectSort} {objects : World → List α} {i : Nat},
      (Procedure.find sort objects i).Maintains .lone (·.world.Furnished cs m) :=
    maintains_find _ _ _
  have hremark : ∀ r, (remark r).Maintains .lone (·.world.Furnished cs m) := fun _ =>
    furnished_change (fun _ => rfl) fun _ => rfl
  have hstop : ∀ k, (Controller.stop k).Maintains .lone (·.world.Furnished cs m) := by
    intro k
    refine hgood.bind hfind fun c => ?_
    split
    · exact hgood.bind (furnished_change (fun _ => rfl) fun _ => rfl) fun _ =>
        hgood.bind hfind fun _ => hgood.bind (hremark _) fun _ =>
        hgood.bind (furnished_change (fun _ => rfl) fun _ => rfl) fun _ =>
        (furnished_parting cs m _).stop (furnished_change (fun _ => rfl) fun _ => rfl)
    · exact hremark _
  have hhold : (Bootstrap.hold i none).Maintains .lone (·.world.Furnished cs m) :=
    furnished_change (fun _ => rfl) fun w => by simp [World.hold, World.happen, World.modifyBootstrap]
  refine hgood.bind hfind fun b => ?_
  split
  · refine hgood.bind (hremark _) fun _ => hgood.bind hfind fun b => ?_
    split
    · exact fun _ h => h
    · exact hgood.bind hhold fun _ => hstop _
  · exact fun _ h => h

end Furnished

namespace World

structure Kept (w w' : World) : Prop where
  contexts : w'.contexts = w.contexts
  bootstraps : w'.bootstraps = w.bootstraps
  controllers : w'.controllers = w.controllers
  disposables : w'.disposables = w.disposables
  connections : w'.connections = w.connections

end World

namespace Controller

variable {j k context : Nat} {n : Notifier} {did made : List Event} {w w₀ w' : World}

theorem Launched.of_kept (h : Launched k j context n made w w') (hkept : w₀.Kept w)
    (hdid : w₀.Did did w) : Launched k j context n (did ++ made) w₀ w' where
  did := hdid.trans h.did
  controller := h.controller
  runs := h.runs
  contexts := by rw [h.contexts, hkept.contexts, hkept.disposables]
  disposables := by rw [h.disposables, hkept.disposables]

theorem Abandoned.of_kept (h : Abandoned k j n made w w') (hkept : w₀.Kept w)
    (hdid : w₀.Did did w) (hnone : Event.connections did = [])
    (hreadings : ∀ e ∈ did, e.isReading = false) :
    Abandoned k j n (did ++ made) w₀ w' where
  did := by
    obtain ⟨fault, hshown⟩ := h.did
    refine ⟨fault, ?_⟩
    rw [Event.connections_append, hnone, List.nil_append, Event.readings_prepend hreadings]
    simpa only [List.append_assoc] using hdid.trans hshown
  controller := h.controller
  stopped := h.stopped
  contexts := h.contexts.trans hkept.contexts
  disposables := h.disposables.trans hkept.disposables

end Controller

variable {a : Lone}

/-- A log directory that cannot be made does not matter. -/
theorem lone_openChannel (hlog : ∀ f, a.world.logDirectory.refusal = some f → f.isOs = true)
    (name : String) :
    (openChannel name).Leads .lone a fun r b => r = .ok (channelSlug name) ∧ a.world.Kept b.world ∧
      a.world.Did [] b.world ∧ b.world.sessions = a.world.sessions ∧ b.calls = a.calls := by
  have hsame : a.world.Did [] a.world := .of_trace rfl
  rw [openChannel, leads_bind, leads_ask]
  dsimp only [onOk]
  split
  · exact ⟨rfl, ⟨rfl, rfl, rfl, rfl, rfl⟩, hsame, rfl, rfl⟩
  · have hasked : a.world.Did [] (a.world.happen .askedLogDirectory) := World.did_happen _ _
    rw [leads_bind, leads_recoverOs, attachFile, leads_bind, makeLogDirectory, leads_bind, leads_happen]
    dsimp only [onOk]
    rw [leads_bind, leads_ask]
    dsimp only [onOk]
    simp only [Passage.update_lone, Passage.world_lone]
    cases hdir : (a.world.happen .askedLogDirectory).logDirectory.refusal with
    | none => exact ⟨rfl, ⟨rfl, rfl, rfl, rfl, rfl⟩, hasked.remark rfl, rfl, rfl⟩
    | some f =>
      refine ⟨fun _ => ⟨rfl, ⟨rfl, rfl, rfl, rfl, rfl⟩, hasked.remark rfl, rfl, rfl⟩, fun hf => ?_⟩
      rw [hlog f hdir] at hf
      cases hf

/-- No session could be made, and nothing has come of it. -/
structure World.Unmade (slug : String) (w w' : World) : Prop extends w.Kept w' where
  did : w.Did [.called (.makeClient slug)] w'
  sessions : w'.sessions = w.sessions

/-- A session has been made for this transport. -/
structure World.Made (slug : String) (t : Transport) (w w' : World) : Prop extends w.Kept w' where
  did : w.Did [.called (.makeClient slug), .madeClient w.sessions.length] w'
  session : ∃ x, w'.sessions[w.sessions.length]? = some x ∧ x.IsNew ∧ x.transport = t

theorem lone_buildSession (hlog : ∀ f, a.world.logDirectory.refusal = some f → f.isOs = true)
    {t : Transport} (ht : ∀ v, t ≠ .foreign v) (options : SessionOptions) :
    (buildSession t options).Leads .lone a fun r b =>
      (∃ f, r = .error f ∧
        b.calls = a.calls ++ [(.makeClient (channelSlug options.channelName), .error f)] ∧
        a.world.Unmade (channelSlug options.channelName) b.world) ∨
      ∃ reply, r = .ok a.world.sessions.length ∧
        b.calls = a.calls ++ [(.makeClient (channelSlug options.channelName), .ok reply)] ∧
        a.world.Made (channelSlug options.channelName) t b.world := by
  obtain ⟨names, hnames⟩ : ∃ names, transportNames t = .ok names := by
    cases t with
    | socket host port => exact ⟨_, rfl⟩
    | spawn command args directory => exact ⟨_, rfl⟩
    | foreign v => exact absurd rfl (ht v)
  rw [buildSession, hnames]
  change (remark _ >>= fun _ => newSession names.1 t options).Leads .lone a _
  rw [leads_bind, leads_remark]
  dsimp only [onOk]
  rw [newSession, leads_bind]
  refine (lone_openChannel (a := ⟨a.world.remark _, a.calls⟩) hlog _).mono ?_
  rintro r b ⟨hr, hkept, hdid, hsessions, hcalls⟩
  subst hr
  have hkept' : a.world.Kept b.world := ⟨hkept.contexts, hkept.bootstraps, hkept.controllers,
    hkept.disposables, hkept.connections⟩
  have hsessions' : b.world.sessions = a.world.sessions := hsessions
  let slug := channelSlug options.channelName
  have hasked : a.world.Did [.called (.makeClient slug)] (b.world.happen (.called (.makeClient slug))) :=
    ((World.did_happen a.world (.remarked (.buildingSession names.1 names.2))).trans hdid).trans
      (World.did_happen _ _)
  dsimp only [onOk]
  rw [leads_bind, leads_request]
  intro result _
  rw [hcalls]
  cases result with
  | error f =>
    exact .inl ⟨f, rfl, rfl, { hkept' with did := hasked, sessions := hsessions' }⟩
  | ok reply =>
    have hlength : (b.world.happen (.called (.makeClient slug))).sessions.length =
        a.world.sessions.length := congrArg _ hsessions'
    let x : Session := ⟨names.1, t, options, slug, none, false, false, false, 0⟩
    let w := addSession x (b.world.happen (.called (.makeClient slug)))
    have hmade : w.Did [.madeClient a.world.sessions.length]
      (w.happen (.madeClient a.world.sessions.length)) := World.did_happen _ _
    have hnew : x.IsNew := ⟨⟨rfl, rfl⟩, rfl, rfl, rfl⟩
    change _ ∨ _
    refine .inr ⟨reply, congrArg _ hlength, rfl, { hkept' with did := ?_, session := ⟨x, ?_, hnew, rfl⟩ }⟩
    · rw [← hlength] at hmade ⊢
      exact hasked.trans hmade
    · rw [← hlength]
      exact List.getElem?_concat_length

def Bootstrap.startNew (i context : Nat) (n : Notifier) (j : Nat) : Procedure Nat := do
  let controller ← newController n
  hold i (some controller)
  let _ ← Controller.start controller j context
  pure controller

/-- What an activation comes to once its session is made, by how far the start has come. -/
structure Bootstrap.Continued (i context j : Nat) (n : Notifier) (x : Session) (w : World)
    (calls : List (Call × Except Fault Reply)) (made : List Event) (fault : Option Fault)
    (r : Except Fault Nat) (w' : World) : Prop where
  stages : ∃ cs rest, calls = cs ++ rest ∧
    Stages (Session.stages j (w.connections + 1) x.transport) cs made fault
  runs : fault = none → w.refusal? (Posting.sessionStarted x.slug x.name).record = none →
    (r = .ok w.controllers.length ∧ w'.current i = some w.controllers.length) ∧
      Controller.Launched w.controllers.length j context n made w w'
  fails : fault.isSome = true → n.CanTell w →
    (r = .ok w.controllers.length ∧ w'.current i = some w.controllers.length) ∧
      Controller.Abandoned w.controllers.length j n made w w'

namespace Bootstrap

theorem lone_startNew {w : World} {i j : Nat} {x : Session} (hx : w.sessions[j]? = some x)
    (hnew : x.IsNew) (ht : ∀ v, x.transport ≠ .foreign v) (hi : i < w.bootstraps.length)
    (context : Nat) (n : Notifier) :
    (startNew i context n j).Leads .lone ⟨w, []⟩ fun r b => ∃ made fault,
      Continued i context j n x w b.calls made fault r b.world := by
  have hk : (addController ⟨n, none, .unstarted⟩ w).controllers[w.controllers.length]? =
      some ⟨n, none, .unstarted⟩ := List.getElem?_concat_length
  let w₁ := (addController ⟨n, none, .unstarted⟩ w).hold i (some w.controllers.length)
  have hheld : w.Did [] w₁ := World.did_happen _ (.held i (some w.controllers.length))
  have hcurrent : ∀ w' : World, w'.bootstraps = w₁.bootstraps →
      w'.current i = some w.controllers.length := by
    intro w' hw'
    rw [World.current, hw']
    have hb : w₁.bootstraps[i]? = some { w.bootstraps[i] with controller := some w.controllers.length } :=
      getElem?_modify_self _ (List.getElem?_eq_getElem hi)
    rw [hb]
    rfl
  rw [startNew, leads_bind, newController, leads_bind, leads_ask]
  dsimp only [onOk]
  rw [leads_bind, leads_change]
  dsimp only [onOk]
  rw [leads_pure]
  dsimp only [onOk]
  rw [leads_bind, hold, leads_change]
  dsimp only [onOk]
  rw [leads_bind]
  refine (Controller.lone_start (a := ⟨w₁, []⟩) hk hx hnew ht context).mono ?_
  rintro r b ⟨made, fault, hstarted⟩
  obtain ⟨cs, rest, hcalls, hstages⟩ := hstarted.stages
  cases r with
  | ok started =>
    refine ⟨made, fault, ⟨cs, rest, hcalls, hstages⟩, fun hnone hwrite => ?_, fun hsome htell => ?_⟩
    · obtain ⟨_, hb, hlaunched⟩ := hstarted.runs hnone hwrite
      exact ⟨⟨rfl, hcurrent _ hb⟩, hheld.trans hlaunched.did, hlaunched.controller, hlaunched.runs,
        hlaunched.contexts, hlaunched.disposables⟩
    · obtain ⟨_, hb, habandoned⟩ := hstarted.fails hsome htell
      exact ⟨⟨rfl, hcurrent _ hb⟩, habandoned.did.imp fun _ hdid => hheld.trans hdid,
        habandoned.controller, habandoned.stopped, habandoned.contexts, habandoned.disposables⟩
  | error f =>
    refine ⟨made, fault, ⟨cs, rest, hcalls, hstages⟩, fun hnone hwrite => ?_, fun hsome htell => ?_⟩
    · cases (hstarted.runs hnone hwrite).1
    · cases (hstarted.fails hsome htell).1

variable {respond : Call → Setting → Except Fault Reply × Setting} {s t u : Setting} {i context : Nat}
  {prepared : Config × Context × Transport}

theorem yields_prepared (respond : Call → Setting → Except Fault Reply × Setting) (s : Setting)
    (i context : Nat) :
    (preparation i context).Yields (.ofAccounts respond) ⟨s, []⟩ fun prepared _ =>
      i < s.world.bootstraps.length ∧ s.world.contexts[context]? = some prepared.2.1 := by
  rw [Yields, preparation, leads_bind, find, leads_find]
  refine ⟨fun b hb => ?_, fun _ _ hr => by cases hr⟩
  dsimp only [onOk]
  rw [leads_bind, Context.find, leads_find]
  refine ⟨fun c hc => ?_, fun _ _ hr => by cases hr⟩
  dsimp only [onOk]
  split
  · exact yields_throw _
  · refine Yields.bind (yields_true _ _) fun _ _ _ => Yields.bind (yields_true _ _) fun _ _ _ => ?_
    exact yields_pure ⟨(List.getElem?_eq_some_iff.mp hb).1, hc⟩

/-- What is prepared is for a bootstrap and a context that exist, and names no foreign transport. -/
theorem fits_of_prepared (hprepared : (preparation i context).run respond s = (.ok prepared, t)) :
    i < s.world.bootstraps.length ∧ s.world.contexts[context]? = some prepared.2.1 ∧
      ∀ v, prepared.2.2 ≠ .foreign v := by
  have hok := congrArg Prod.fst hprepared
  obtain ⟨hi, hc⟩ := (leads_runs _ _ _).mp (yields_prepared respond s i context) prepared hok
  refine ⟨hi, hc, fun v hv => ?_⟩
  have hyields : (preparation i context).Yields (.ofAccounts respond) ⟨s, []⟩ _ :=
    yields_preparation (List.getElem?_eq_getElem hi) context
  have hchecked := (leads_runs _ _ _).mp hyields prepared hok
  dsimp only at hchecked
  rw [hv] at hchecked
  exact hchecked

section Replaced

variable (hprepared : (preparation i context).run respond s = (.ok prepared, t))
  (hreplaced : (replacePrevious i).run respond t = (.ok (), u))
include hprepared hreplaced

theorem run_activate_of_replaced :
    (activate i context).run respond s = (buildSession prepared.2.2 prepared.1.options >>=
      startNew i context prepared.2.1.notifier).run respond u := by
  rw [activate_eq, run_bind_of_ok _ hprepared]
  exact run_bind_of_ok _ hreplaced

theorem exchanges_activate_of_replaced :
    (activate i context).exchanges respond s = (preparation i context).exchanges respond s ++
      ((replacePrevious i).exchanges respond t ++ (buildSession prepared.2.2 prepared.1.options >>=
        startNew i context prepared.2.1.notifier).exchanges respond u) := by
  rw [activate_eq, exchanges_bind_of_ok hprepared]
  exact congrArg _ (exchanges_bind_of_ok hreplaced)

theorem furnished_of_replaced (hlone : ∀ x ∈ (activate i context).exchanges respond s, x.IsLone) :
    u.world.Furnished s.world.contexts s.world.bootstraps.length := by
  rw [exchanges_activate_of_replaced hprepared hreplaced] at hlone
  have ht := Leads.lone [] (furnished_confined (confined_preparation i context) ⟨s.world, []⟩
    ⟨rfl, rfl⟩) fun x hx => hlone x (List.mem_append_left _ hx)
  rw [hprepared] at ht
  have hu := Leads.lone [] (furnished_replacePrevious i ⟨t.world, []⟩ ht) fun x hx =>
    hlone x (List.mem_append_right _ (List.mem_append_left _ hx))
  rwa [hreplaced] at hu

end Replaced

theorem made_or_unmade {transport : Transport} {options : SessionOptions}
    (hlog : ∀ f, u.world.logDirectory.refusal = some f → f.isOs = true)
    (ht : ∀ v, transport ≠ .foreign v)
    (hlone : ∀ x ∈ (buildSession transport options).exchanges respond u, x.IsLone) :
    let slug := channelSlug options.channelName
    let calls := ((buildSession transport options).exchanges respond u).map Exchange.outcome
    (∃ f v, (buildSession transport options).run respond u = (.error f, v) ∧
      calls = [(.makeClient slug, .error f)] ∧ u.world.Unmade slug v.world) ∨
    ∃ reply v, (buildSession transport options).run respond u = (.ok u.world.sessions.length, v) ∧
      calls = [(.makeClient slug, .ok reply)] ∧ u.world.Made slug transport v.world := by
  rcases Leads.lone [] (lone_buildSession (a := ⟨u.world, []⟩) hlog ht options) hlone with
    ⟨f, hr, hcalls, hunmade⟩ | ⟨reply, hr, hcalls, hmade⟩
  · exact .inl ⟨f, _, Prod.ext hr rfl, hcalls, hunmade⟩
  · exact .inr ⟨reply, _, Prod.ext hr rfl, hcalls, hmade⟩

/-- An activation that is prepared and has nothing left to stop makes a client and goes through the stages
of its start, as far as the first call that fails. A client that cannot be made ends it there. If no call
fails, and the start can be logged, then the session runs and is registered. If one of the start fails,
then the user is told, the connection closed and the client stopped, and the controller has failed. -/
theorem activate_of_prepared (hprepared : (preparation i context).run respond s = (.ok prepared, t))
    (hreplaced : (replacePrevious i).run respond t = (.ok (), u))
    (hlog : ∀ f, u.world.logDirectory.refusal = some f → f.isOs = true)
    (hlone : ∀ x ∈ (activate i context).exchanges respond s, x.IsLone) :
    let r := (activate i context).run respond s
    let j := u.world.sessions.length
    let k := u.world.controllers.length
    let slug := channelSlug prepared.1.options.channelName
    (s.world.contexts[context]? = some prepared.2.1 ∧ u.world.contexts = s.world.contexts) ∧
    ∃ calls made fault,
      (activate i context).exchanges respond s = (preparation i context).exchanges respond s ++
        ((replacePrevious i).exchanges respond t ++ calls) ∧
      (∃ started rest, calls.map Exchange.outcome = started ++ rest ∧
        Stages (.called (.makeClient slug) ::
          Session.stages j (u.world.connections + 1) prepared.2.2) started made fault) ∧
      ((∃ f, fault = some f ∧ made = [.called (.makeClient slug)] ∧ r.1 = .error f ∧
        u.world.Unmade slug r.2.world) ∨
      ∃ v x staged, made = .called (.makeClient slug) :: staged ∧
        (buildSession prepared.2.2 prepared.1.options).run respond u = (.ok j, v) ∧
        v.world.sessions[j]? = some x ∧
        (fault = none → v.world.refusal? (Posting.sessionStarted x.slug x.name).record = none →
          (r.1 = .ok k ∧ r.2.world.current i = some k) ∧
            Controller.Launched k j context prepared.2.1.notifier
              (.called (.makeClient slug) :: .madeClient j :: staged) u.world r.2.world) ∧
        (fault.isSome = true → prepared.2.1.notifier.CanTell v.world →
          (r.1 = .ok k ∧ r.2.world.current i = some k) ∧
            Controller.Abandoned k j prepared.2.1.notifier
              (.called (.makeClient slug) :: .madeClient j :: staged) u.world r.2.world)) := by
  intro r j k slug
  -- the calls are those of the preparation, of the end of what ran before, and of what is new
  obtain ⟨hi, hc, hsupported⟩ := fits_of_prepared hprepared
  have hfurnished := furnished_of_replaced hprepared hreplaced hlone
  have hrest := exchanges_activate_of_replaced hprepared hreplaced
  have hrun : r = (buildSession prepared.2.2 prepared.1.options >>=
    startNew i context prepared.2.1.notifier).run respond u := run_activate_of_replaced hprepared hreplaced
  have hafter : ∀ x ∈ (buildSession prepared.2.2 prepared.1.options >>=
      startNew i context prepared.2.1.notifier).exchanges respond u, x.IsLone := fun x hx =>
    hlone x (hrest ▸ List.mem_append_right _ (List.mem_append_right _ hx))
  rcases made_or_unmade hlog hsupported fun x hx => hafter x (mem_exchanges_bind _ hx) with
    ⟨f, v, hbuilt, hcalls, hunmade⟩ | ⟨reply, v, hbuilt, hcalls, hmade⟩
  · have hnone := exchanges_bind_of_error (k := startNew i context prepared.2.1.notifier) hbuilt
    have hfailed : r = (.error f, v) := hrun.trans (run_bind_of_error hbuilt)
    refine ⟨⟨hc, hfurnished.1⟩, _, [.called (.makeClient slug)], some f, hrest, ⟨_, [], ?_, .failed⟩,
      .inl ⟨f, rfl, rfl, ?_⟩⟩
    · rw [hnone, hcalls]
      rfl
    · rw [hfailed]
      exact ⟨rfl, hunmade⟩
  · have hcontinues := exchanges_bind_of_ok (k := startNew i context prepared.2.1.notifier) hbuilt
    have hstart : r = (startNew i context prepared.2.1.notifier j).run respond v :=
      hrun.trans (run_bind_of_ok _ hbuilt)
    obtain ⟨x, hx, hnew, htransport⟩ := hmade.session
    have hlisted : i < v.world.bootstraps.length := by
      rw [hmade.bootstraps, hfurnished.2]
      exact hi
    obtain ⟨staged, fault, hcontinued⟩ := Leads.lone []
      (lone_startNew hx hnew (by rwa [htransport]) hlisted context prepared.2.1.notifier)
      fun x hx => hafter x (hcontinues ▸ List.mem_append_right _ hx)
    rw [← hstart, List.nil_append] at hcontinued
    -- what the start says of the world in which the session is made holds of the one before as well
    have hk : v.world.controllers.length = k := congrArg _ hmade.controllers
    obtain ⟨started, rest, hstarted, hstages⟩ := hcontinued.stages
    rw [hmade.connections, htransport] at hstages
    refine ⟨⟨hc, hfurnished.1⟩, _, .called (.makeClient slug) :: staged, fault, hrest,
      ⟨(.makeClient slug, .ok reply) :: started, rest, ?_, .returned hstages⟩,
      .inr ⟨v, x, staged, rfl, hbuilt, hx, fun hend hwrite => ?_, fun hend htell => ?_⟩⟩
    · rw [hcontinues, List.map_append, hcalls]
      exact congrArg (List.cons _) hstarted
    · obtain ⟨hanswer, hlaunched⟩ := hcontinued.runs hend hwrite
      rw [hk] at hanswer hlaunched
      exact ⟨hanswer, hlaunched.of_kept hmade.toKept hmade.did⟩
    · obtain ⟨hanswer, habandoned⟩ := hcontinued.fails hend htell
      rw [hk] at hanswer habandoned
      exact ⟨hanswer, habandoned.of_kept hmade.toKept hmade.did rfl (by simp [Event.isReading])⟩

/-- The server answers the handshake with a failure. -/
def refusedSetting : Setting :=
  Step.leaveAll 9 9
    [.newContext (.path ⟨.none, []⟩) (.member (.text "development")) .null .host, .newBootstrap none]
    (.unlogged (.once .beginHandshake [] (some (.raised .runtime ""))))

theorem activate_of_handshake_refused :
    let respond := Call.respond (Step.leave 9 9)
    let r := (activate 0 0).run respond refusedSetting
    (∀ x ∈ (activate 0 0).exchanges respond refusedSetting, x.IsLone) ∧
      ∃ prepared t u, (preparation 0 0).run respond refusedSetting = (.ok prepared, t) ∧
        (replacePrevious 0).run respond t = (.ok (), u) ∧
        (r.1 = .ok 0 ∧ r.2.world.current 0 = some 0) ∧
        ∃ made, Controller.Abandoned 0 0 .host made u.world r.2.world := by
  intro respond
  have hscript : refusedSetting.script =
      .once .beginHandshake [] (some (.raised .runtime "")) := rfl
  have hlone : ∀ x ∈ (activate 0 0).exchanges respond refusedSetting, x.IsLone :=
    isLone_activate _ (hscript ▸ Script.isTame_once rfl rfl) 0 0
  have hlog : ∀ f, refusedSetting.world.logDirectory.refusal = some f → f.isOs = true := by
    rintro f ⟨⟩
    rfl
  obtain ⟨prepared, t, u, hprepared, hreplaced, hnotifier, hdirectory, hsessions, hcontrollers,
    hhandlers⟩ : ∃ prepared t u, (preparation 0 0).run respond refusedSetting = (.ok prepared, t) ∧
      (replacePrevious 0).run respond t = (.ok (), u) ∧ prepared.2.1.notifier = .host ∧
      u.world.logDirectory = refusedSetting.world.logDirectory ∧ u.world.sessions.length = 0 ∧
      u.world.controllers = [] ∧ ((buildSession prepared.2.2 prepared.1.options).run respond
        u).2.world.handlers = [] := ⟨_, _, _, rfl, rfl, rfl, rfl, rfl, rfl, rfl⟩
  have hactivated := activate_of_prepared hprepared hreplaced (hdirectory ▸ hlog) hlone
  have hfailed : ((activate 0 0).run respond refusedSetting).2.world.controllers[0]?.map (·.state) =
      some .failed := by decide +kernel
  dsimp only at hactivated ⊢
  rw [hsessions, hcontrollers, hnotifier] at hactivated
  generalize (activate 0 0).run respond refusedSetting = r at hactivated hfailed ⊢
  obtain ⟨_, calls, made, fault, _, _,
    ⟨f, _, _, _, hunmade⟩ | ⟨v, x, staged, _, hbuilt, _, hruns, hfails⟩⟩ := hactivated
  · rw [hunmade.controllers, hcontrollers] at hfailed
    cases hfailed
  rw [hbuilt] at hhandlers
  dsimp only at hhandlers
  cases fault with
  | none =>
    obtain ⟨_, hlaunched⟩ := hruns rfl
      (World.refusal?_eq_none_iff.mpr fun _ h hh => by simp [World.reached, hhandlers] at hh)
    have hrunning : r.2.world.controllers[0]? = some ⟨.host, _, .running⟩ := hlaunched.controller
    rw [hrunning] at hfailed
    cases hfailed
  | some f =>
    obtain ⟨hanswer, habandoned⟩ := hfails rfl fun _ h => by cases h
    exact ⟨hlone, prepared, t, u, hprepared, hreplaced, hanswer, _, habandoned⟩

/-- The host keeps logs, but the log file of the channel cannot be opened. -/
def unwritableSetting : Setting :=
  Step.leaveAll 9 9 (openingSteps .host ++ [.newConfig longNamed, .newBootstrap (some 1)])
    (.start "" (.usable "logs") .empty)

/-- No call fails, but the session's start cannot be logged. So the activation is given up, although
the server has already been told that the session runs. -/
theorem activate_unwritable :
    let respond := Call.respond (Step.leave 9 9)
    let exchanges := (activate 1 0).exchanges respond unwritableSetting
    let w := ((activate 1 0).run respond unwritableSetting).2.world
    (∀ x ∈ exchanges, x.IsLone) ∧
      (((preparation 1 0 >>= fun _ => replacePrevious 1).run respond unwritableSetting).1.isOk = true ∧
        exchanges.all (·.result.isOk) = true) ∧
      (w.controllers.map (·.state) = [.failed] ∧ w.contexts.map (·.subscriptions) = [[]]) ∧
      exchanges.map (·.call.queue?) = [some .makeClient, some .connect, some .setWriter, some .readLoop,
        some .beginHandshake, some .finishHandshake, some (.notify .error), some .shutdown, some .exit,
        some .closeWriter, some .stopClient] := by
  intro respond exchanges w
  have hscript : unwritableSetting.script = Script.empty := rfl
  exact ⟨isLone_activate _ (hscript ▸ Script.isTame_empty) 1 0, by decide +kernel⟩

end Bootstrap

end EditorClient

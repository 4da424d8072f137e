import EditorClient.Proofs.OwnerSteps
import EditorClient.Proofs.StepEvolution

/-! What is referred to exists: at every moment of a run the controller that a bootstrap holds is among
the controllers, and the session that a controller holds is among the sessions. -/

namespace EditorClient

open Procedure

namespace World

/-- The controllers that bootstraps hold and the sessions that controllers hold exist. -/
structure Linked (w : World) : Prop where
  controller : ∀ b ∈ w.bootstraps, ∀ k, b.controller = some k → k < w.controllers.length
  session : ∀ c ∈ w.controllers, ∀ j, c.session = some j → j < w.sessions.length

/-- There are at least so many bootstraps, controllers and sessions. -/
structure Stocked (i k j : Nat) (w : World) : Prop extends Linked w where
  bootstraps : i ≤ w.bootstraps.length
  controllers : k ≤ w.controllers.length
  sessions : j ≤ w.sessions.length

variable {w w' : World} {i k j : Nat}

theorem linked_initial (directory : String) (log : LogDirectory) :
    (initial directory log).Linked := ⟨nofun, nofun⟩

theorem Linked.leavesOwners (h : w.Linked) (hw : w.LeavesOwners w') : w'.Linked where
  controller := by
    rw [hw.bootstraps, hw.controllers]
    exact h.controller
  session := by
    rw [hw.controllers]
    exact fun c hc j hj => Nat.lt_of_lt_of_le (h.session c hc j hj) hw.sessions

theorem Linked.addBootstrap (h : w.Linked) (config : Config) :
    (addBootstrap ⟨config, none⟩ w).Linked := by
  refine ⟨fun b hb k hk => ?_, h.session⟩
  rcases List.mem_append.mp hb with hb | hb
  · exact h.controller b hb k hk
  · rw [List.mem_singleton.mp hb] at hk
    cases hk

theorem Linked.addController (h : w.Linked) (n : Notifier) :
    (addController ⟨n, none, .unstarted⟩ w).Linked := by
  have hlength : (EditorClient.addController ⟨n, none, .unstarted⟩ w).controllers.length =
      w.controllers.length + 1 := List.length_append
  refine ⟨fun b hb k hk => ?_, fun c hc j hj => ?_⟩
  · have hlt := h.controller b hb k hk
    omega
  · rcases List.mem_append.mp hc with hc | hc
    · exact h.session c hc j hj
    · rw [List.mem_singleton.mp hc] at hj
      cases hj

theorem Linked.hold (h : w.Linked) {controller : Option Nat}
    (hk : ∀ k, controller = some k → k < w.controllers.length) :
    (w.modifyBootstrap i fun b => { b with controller := controller }).Linked := by
  refine ⟨fun b hb k hbk => ?_, h.session⟩
  obtain ⟨m, hm⟩ := List.getElem?_of_mem hb
  obtain ⟨x, hx, ⟨_, rfl⟩ | ⟨_, rfl⟩⟩ := getElem?_modify_cases hm
  · exact hk k hbk
  · exact h.controller b (List.mem_of_getElem? hx) k hbk

/-- A controller may come to hold a session that exists. -/
theorem Linked.modifyController (h : w.Linked) {f : Controller → Controller}
    (hf : ∀ c j, (f c).session = some j → c.session = some j ∨ j < w.sessions.length) :
    (w.modifyController k f).Linked := by
  have hlength : (w.modifyController k f).controllers.length = w.controllers.length :=
    List.length_modify ..
  refine ⟨fun b hb k hk => ?_, fun c hc j hj => ?_⟩
  · rw [hlength]
    exact h.controller b hb k hk
  · obtain ⟨m, hm⟩ := List.getElem?_of_mem hc
    obtain ⟨x, hx, ⟨_, rfl⟩ | ⟨_, rfl⟩⟩ := getElem?_modify_cases hm
    · rcases hf x j hj with hj | hj
      · exact h.session x (List.mem_of_getElem? hx) j hj
      · exact hj
    · exact h.session c (List.mem_of_getElem? hx) j hj

theorem Evolves.controllers_length (h : w.Evolves w') :
    w.controllers.length ≤ w'.controllers.length := by
  refine length_le_of_getElem? fun k c hc => ?_
  obtain ⟨c', hc', _⟩ := h.controllers k c hc
  exact ⟨c', hc'⟩

namespace Stocked

theorem leavesOwners (h : w.Stocked i k j) (hw : w.LeavesOwners w') : w'.Stocked i k j where
  toLinked := h.toLinked.leavesOwners hw
  bootstraps := hw.bootstraps ▸ h.bootstraps
  controllers := hw.controllers ▸ h.controllers
  sessions := Nat.le_trans h.sessions hw.sessions

theorem weaken {i' k' j' : Nat} (h : w.Stocked i' k' j') (hi : i ≤ i') (hk : k ≤ k')
    (hj : j ≤ j') : w.Stocked i k j :=
  ⟨h.toLinked, Nat.le_trans hi h.bootstraps, Nat.le_trans hk h.controllers, Nat.le_trans hj h.sessions⟩

/-- As many as there are. -/
theorem all (h : w.Linked) :
    w.Stocked w.bootstraps.length w.controllers.length w.sessions.length :=
  ⟨h, Nat.le_refl _, Nat.le_refl _, Nat.le_refl _⟩

theorem of_linked (h : w.Linked) : w.Stocked 0 0 0 :=
  (all h).weaken (Nat.zero_le _) (Nat.zero_le _) (Nat.zero_le _)

/-- Contexts, disposables and logs are of no account here. -/
theorem of_eq (h : w.Stocked i k j) (hb : w'.bootstraps = w.bootstraps)
    (hc : w'.controllers = w.controllers) (hs : w'.sessions = w.sessions) : w'.Stocked i k j := by
  obtain ⟨⟨hcontroller, hsession⟩, hi, hk, hj⟩ := h
  rw [← hb, ← hc] at hcontroller
  rw [← hc, ← hs] at hsession
  exact ⟨⟨hcontroller, hsession⟩, hb ▸ hi, hc ▸ hk, hs ▸ hj⟩

theorem happen (h : w.Stocked i k j) (e : Event) : (w.happen e).Stocked i k j :=
  h.leavesOwners (w.leavesOwners_happen e)

theorem meanwhile (h : w.Stocked i k j) (hl : w'.Linked) (hm : w.Meanwhile w') :
    w'.Stocked i k j :=
  ⟨hl, Nat.le_trans h.bootstraps hm.evolves.bootstraps,
    Nat.le_trans h.controllers hm.evolves.controllers_length,
    Nat.le_trans h.sessions hm.evolves.sessions_length⟩

theorem addController (h : w.Stocked i k j) (n : Notifier) :
    (addController ⟨n, none, .unstarted⟩ w).Stocked i k j :=
  ⟨h.toLinked.addController n, h.bootstraps,
    Nat.le_trans h.controllers (by simp [EditorClient.addController]), h.sessions⟩

theorem hold (h : w.Stocked i k j) {m : Nat} {controller : Option Nat}
    (hk : ∀ k, controller = some k → k < w.controllers.length) :
    (w.hold m controller).Stocked i k j :=
  happen ⟨h.toLinked.hold hk, by simpa [modifyBootstrap] using h.bootstraps, h.controllers, h.sessions⟩
    (.held m controller)

theorem modifyController (h : w.Stocked i k j) {m : Nat} {f : Controller → Controller}
    (hf : ∀ c l, (f c).session = some l → c.session = some l ∨ l < w.sessions.length) :
    (w.modifyController m f).Stocked i k j :=
  ⟨h.toLinked.modifyController hf, h.bootstraps, by simpa [World.modifyController] using h.controllers,
    h.sessions⟩

end Stocked

end World

/-- A procedure that leaves everything linked, and as many objects as there were. -/
abbrev Procedure.Links {α : Type} (i k j : Nat) (p : Procedure α) : Prop :=
  p.Preserves World.Linked World.Meanwhile (World.Stocked i k j)

variable {i k j : Nat}

theorem links_request (c : Call) : (request c).Links i k j := by
  intro w hw
  have hnoted := hw.happen (.called c)
  rw [ensures_request]
  exact ⟨hnoted.toLinked, fun r w' hl hm => hnoted.meanwhile hl hm⟩

theorem links_ownerless (i k j : Nat) : Ownerless fun p => p.Links i k j where
  toCompositional := preserves_compositional _ _ _
  quiet := fun hp => hp.maintains (fun _ _ hf hw => hw.leavesOwners hf.leavesOwners)
    fun c _ => links_request c
  request := fun c _ => links_request c
  apart := fun _ hf w hw => hw.leavesOwners (hf w)

theorem links_newController (n : Notifier) : (newController n).Links i k j :=
  (links_ownerless i k j).bind (fun _ hw => hw) fun _ =>
    (links_ownerless i k j).bind (fun _ hw => hw.addController n) fun _ _ hw => hw

theorem links_controllerModify {m : Nat} {f : Controller → Controller}
    (hf : ∀ c l, (f c).session = some l → c.session = some l ∨ l < j) :
    (Controller.modify m f).Links i k j := fun _ hw => hw.modifyController fun c l hl =>
  (hf c l hl).imp_right fun hlt => Nat.lt_of_lt_of_le hlt hw.sessions

theorem links_callSession (m : Nat) (c : SessionCall) :
    (change (·.callSession m c)).Links i k j := fun _ hw => hw.of_eq rfl rfl rfl

theorem links_stopController (m : Nat) : (Controller.stop m).Links i k j := by
  have hgood := links_ownerless i k j
  refine hgood.bind hgood.find fun c => ?_
  split
  · exact hgood.bind (links_controllerModify fun _ _ hl => by cases hl) fun _ =>
      hgood.bind hgood.find fun _ => hgood.bind (hgood.remark _) fun _ =>
      hgood.bind (links_callSession m _) fun _ => hgood.stopSession _
  · exact hgood.remark _

/-- A controller holds a session only after this has been found. -/
theorem links_startController (m l c : Nat) : (Controller.start m l c).Links i k j := by
  have hstate : ∀ {i k j state}, (Controller.modify m fun c => { c with state := state }).Links i k j :=
    links_controllerModify fun _ _ => .inl
  refine (links_ownerless i k j).bind (links_ownerless i k j).find fun x => ?_
  dsimp only
  split
  · exact preserves_throw _
  refine (links_ownerless i k j).bind hstate fun _ w hw => ?_
  rw [ensures_bind, Session.find, ensures_find]
  refine ⟨fun s hs => ?_, fun _ => hw⟩
  have hlt : l < w.sessions.length := (List.getElem?_eq_some_iff.mp hs).1
  have hgood := links_ownerless w.bootstraps.length w.controllers.length w.sessions.length
  refine Ensures.mono (hgood.bind (hgood.remark _) (fun _ => hgood.bind (hgood.recoverOrdinary
    (hgood.bind (hgood.bind (links_callSession m _) fun _ => hgood.startSession l) fun _ =>
      hgood.pure true) fun _ =>
      hgood.bind (hgood.startFailed hstate (links_callSession m) l _ _) fun _ => hgood.pure false)
        fun started => ?_)
    w (.all hw.toLinked)) fun _ w' hw' => hw'.weaken hw.bootstraps hw.controllers hw.sessions
  split
  · refine hgood.bind (links_controllerModify fun x l' hl => .inr ?_) fun _ =>
      hgood.bind (fun w hw => hw.of_eq rfl rfl rfl) fun _ => hgood.bind (hgood.remark _) fun _ =>
      hgood.pure _
    exact Option.some.inj hl ▸ hlt
  · exact hgood.pure _

namespace Bootstrap

theorem links_deactivate (m : Nat) : (deactivate m).Links i k j :=
  (links_ownerless i k j).deactivate links_stopController (fun _ _ hw => hw.hold nofun) m

/-- A bootstrap holds a controller that has just been made. -/
theorem links_activate (m c : Nat) : (activate m c).Links i k j := by
  have hgood := links_ownerless i k j
  rw [activate_eq]
  refine hgood.bind (hgood.preparation m c) fun prepared =>
    hgood.bind (hgood.replacePrevious links_deactivate m) fun _ =>
    hgood.bind (hgood.buildSession _ _) fun l w hw => ?_
  change (hold m (some w.controllers.length) >>= fun _ =>
    Controller.start w.controllers.length l c >>= fun _ => pure w.controllers.length).Ensures _ _
      (addController ⟨prepared.2.1.notifier, none, .unstarted⟩ w) _
  have hheld : ((addController ⟨prepared.2.1.notifier, none, .unstarted⟩ w).hold m
      (some w.controllers.length)).Stocked i k j := by
    refine (hw.addController prepared.2.1.notifier).hold fun n hn => ?_
    rw [← Option.some.inj hn]
    simp [addController]
  exact (hgood.bind (links_startController _ l c) fun _ => hgood.pure _) _ hheld

end Bootstrap

theorem links_ownerwise : Ownerwise fun p => p.Links 0 0 0 :=
  have hgood := links_ownerless 0 0 0
  have hact := hgood.act (fun _ _ => links_request _) links_stopController
  have hdispose := hgood.dispose (fun _ _ hw => hw.of_eq rfl rfl rfl) hact
  { toOwnerless := hgood
    newContext := fun _ _ _ hw => hw.of_eq rfl rfl rfl
    newBootstrap := fun config _ hw => .of_linked (hw.toLinked.addBootstrap config)
    activate := Bootstrap.links_activate
    deactivate := Bootstrap.links_deactivate
    newController := links_newController
    startController := links_startController
    stopController := links_stopController
    dispose := hdispose
    disposeContext := hgood.disposeContext (fun _ _ hw => hw.of_eq rfl rfl rfl) hdispose
    subscribe := hgood.subscribe (fun _ _ _ hw => hw.of_eq rfl rfl rfl)
      fun _ _ _ hw => hw.of_eq rfl rfl rfl }

namespace Step

theorem linked_contract (limit : Nat) :
    Step.Contract limit World.Linked World.Meanwhile (fun _ _ => True) fun _ _ _ => True where
  refl := fun _ => trivial
  trans := fun _ _ => trivial
  relied := fun depth steps s _ => meanwhile_leaveAll limit depth steps s
  begins := fun step w hw => hw.leavesOwners (w.leavesOwners_happen (.began step))
  course := by
    intro step w hw
    have hbegun := (World.Stocked.of_linked hw).happen (.began step)
    refine (links_ownerwise.procedure limit step _ hbegun).mono fun answer w' hw' => ?_
    exact ⟨(hw'.happen (.ended answer)).toLinked, trivial, trivial⟩

variable (limit depth : Nat)

theorem linked_moments {directory : String} {log : LogDirectory} {script : Script}
    {steps : List Step} {m : Moment}
    (hm : m ∈ runMoments limit depth steps (.start directory log script)) : m.world.Linked :=
  (((linked_contract limit).leaveAll depth steps _ (World.linked_initial directory log)).2.2 m hm).world

/-- What is there stays there during a call. -/
theorem stocked_respond {s : Setting} (h : s.world.Stocked i k j) (c : Call) :
    (Call.respond (leave limit depth) c s).2.world.Stocked i k j := by
  have hnoted : (c.noted s).world.Stocked i k j := h.happen (.called c)
  rw [Call.respond_snd]
  exact hnoted.meanwhile ((linked_contract limit).leaveAll depth _ (c.noted s) hnoted.toLinked).1
    (meanwhile_leaveAll limit depth _ (c.noted s))

end Step

end EditorClient

import EditorClient.Proofs.OwnershipChange
import EditorClient.Proofs.StepEvolution

/-! Every step keeps the ownership of sessions in order, at every call that it makes and when it
ends. -/

namespace EditorClient

namespace Procedure

variable {α β : Type} {w₀ : World}

/-- A procedure that keeps things in order all the time and does no more than other steps might. -/
abbrev Steady (w₀ : World) (p : Procedure α) : Prop :=
  p.Preserves (World.Sound none none) World.Meanwhile fun w => w.Sound none none ∧ w₀.Meanwhile w

theorem Confined.steady {p : Procedure α} (hp : p.Quiet) : p.Steady w₀ := fun _ hw =>
  (hp.ensures World.Alike.meanwhile World.Meanwhile.trans (fun ha h => h.alike ha) hw.1).mono
    fun _ _ h => ⟨h.1, hw.2.trans h.2⟩

theorem steady_change {f : World → World}
    (h : ∀ w, World.Sound none none w → (f w).Sound none none ∧ w.Meanwhile (f w)) :
    (change f).Steady w₀ := fun w hw => ⟨(h w hw.1).1, hw.2.trans (h w hw.1).2⟩

theorem steady_happen {e : Event} (h : ∀ hist : History, hist.next e = hist) :
    (happen e).Steady w₀ := fun w hw => by
  refine ⟨hw.1.happen_of_activations ?_ ?_ ?_, hw.2.trans (World.meanwhile_happen h)⟩
  · rw [h]
  · rw [h]
  · rw [h]
    exact fun d hd => .inl hd

theorem steady_request (c : Call) : (request c).Steady w₀ := by
  intro w hw
  rw [ensures_request]
  obtain ⟨hs, hm⟩ := (steady_happen (e := .called c) fun _ => rfl : (happen _).Steady w₀) w hw
  exact ⟨hs, fun r w' hi hr => ⟨hi, hm.trans hr⟩⟩

end Procedure

open Procedure

variable {w₀ : World}

namespace Session

theorem steady_modify (i : Nat) {f : Session → Session}
    (hf : ∀ x, x.Evolves (f x) ∧ (f x).stopped = x.stopped ∧ (f x).initialized = x.initialized) :
    (modify i f).Steady w₀ := by
  refine steady_change fun w hw => ⟨?_, w.meanwhile_modifySession i fun x => ?_⟩
  · refine hw.tame (w.tame_modifySession i fun x _ =>
      ⟨(hf x).1.slug, (hf x).1.name, (hf x).1.started, ?_⟩)
      rfl rfl rfl
    simp [isRunning, (hf x).2.1, (hf x).2.2]
  · exact ⟨(hf x).1, (hf x).2.1⟩

theorem steady_connected (i : Nat) : Connected (World.Sound none none) World.Meanwhile
    (fun w => w.Sound none none ∧ w₀.Meanwhile w) i where
  quiet := Confined.steady
  call := fun _ => Procedure.steady_request _
  disconnect := steady_modify i fun _ => ⟨⟨rfl, rfl, id, fun _ => rfl, id⟩, rfl, rfl⟩
  connect := fun _ => steady_modify i fun _ => ⟨⟨rfl, rfl, id, fun _ => rfl, id⟩, rfl, rfl⟩
  setWriter := fun _ => Procedure.steady_request _
  readLoop := fun _ => Procedure.steady_request _
  addTask := steady_modify i fun _ => ⟨⟨rfl, rfl, id, fun _ => rfl, id⟩, rfl, rfl⟩

/-- It is enough to know how things are once the session is marked as stopped. -/
theorem ensures_stop_sound {i : Nat} {w : World}
    (h : (w.modifySession i fun s => { s with stopped := true }).Sound none none) :
    (stop i).Ensures (World.Sound none none) World.Meanwhile w fun _ w' =>
      w'.Sound none none ∧ (w.modifySession i fun s => { s with stopped := true }).Meanwhile w' :=
  (steady_connected i).ensures_stop ⟨h, .refl _⟩

/-- A session that has neither been started nor stopped. -/
def Fresh (w : World) (i : Nat) : Prop :=
  ∃ x, w.sessions[i]? = some x ∧ x.started = false ∧ x.stopped = false

/-- How the start of a session ends, and what its world was before the session was marked as
initialized. -/
inductive StartOutcome (w : World) (i : Nat) : Except Fault Unit → World → Prop where
  | refused {f : Fault} (h : ∀ x, w.sessions[i]? = some x → x.started = true ∨ x.stopped = true) :
    StartOutcome w i (.error f) w
  | failed {f : Fault} {w' : World} (hs : w'.Sound none none)
    (hm : (w.modifySession i fun s => { s with started := true }).Meanwhile w') :
    StartOutcome w i (.error f) w'
  | unlogged {f : Fault} {p : Posting} {w' : World} (hx : Fresh w i) (hs : w'.Sound none none)
    (hm : (w.modifySession i fun s => { s with started := true }).Meanwhile w')
    (hlog : ¬((w'.modifySession i fun s => { s with initialized := true }).happen
      (.refused p)).Unrefused i) :
    StartOutcome w i (.error f)
      ((w'.modifySession i fun s => { s with initialized := true }).happen (.refused p))
  | running {p : Posting} {w' : World} (hx : Fresh w i) (hs : w'.Sound none none)
    (hm : (w.modifySession i fun s => { s with started := true }).Meanwhile w') :
    StartOutcome w i (.ok ()) ((w'.modifySession i fun s => { s with initialized := true }).post p)

theorem ensures_start_sound {i : Nat} {w : World}
    (h : Fresh w i → (w.modifySession i fun s => { s with started := true }).Sound none none) :
    (start i).Ensures (World.Sound none none) World.Meanwhile w (StartOutcome w i) := by
  unfold start
  simp only [ensures_bind, find, ensures_find, onOk]
  refine ⟨fun x hx => ?_, fun hx => .refused fun y hy => by rw [hx] at hy; cases hy⟩
  split
  · rename_i hguard
    refine .refused fun y hy => ?_
    rw [hx, Option.some.injEq] at hy
    rw [← hy]
    exact Bool.or_eq_true_iff.mp hguard
  · rename_i hguard
    simp only [Bool.or_eq_true, not_or, Bool.not_eq_true] at hguard
    have hfresh : Fresh w i := ⟨x, hx, hguard.1, hguard.2⟩
    have hw := h hfresh
    simp only [ensures_bind, modify, ensures_change, onOk]
    refine ((steady_connected i).openTransport x.transport _ ⟨hw, .refl _⟩).mono fun r w₁ hw₁ => ?_
    cases r with
    | error f => exact .failed hw₁.1 hw₁.2
    | ok _ =>
      refine ((steady_connected i).handshake x.name _ hw₁).mono fun r w₂ hw₂ => ?_
      cases r with
      | error f => exact .failed hw₂.1 hw₂.2
      | ok _ =>
        simp only [ensures_post]
        refine ⟨fun f _ => .unlogged hfresh hw₂.1 hw₂.2 fun hlog => ?_,
          fun _ => .running hfresh hw₂.1 hw₂.2⟩
        obtain ⟨y, hy, hxy⟩ := hw₂.2.evolves.sessions i _ (getElem?_modify_self _ hx)
        refine hlog _ (getElem?_modify_self _ hy) (List.mem_append_right _ ?_)
        rw [List.mem_singleton, hxy.slug, hxy.name]

end Session

namespace Controller

/-- It is enough to know how things are once the controller has let go of its session and that is
stopped. -/
theorem ensures_stop_sound {k : Nat} {w : World} (h : (w.halt k).Sound none none) :
    (stop k).Ensures (World.Sound none none) World.Meanwhile w fun _ w' =>
      w'.Sound none none ∧ (w.halt k).Meanwhile w' := by
  have hidle : w.halt k = w → ∀ r : Remark, (w.remark r).Sound none none ∧
      (w.halt k).Meanwhile (w.remark r) := by
    intro he r
    rw [he] at h ⊢
    exact ⟨h.alike (.happen w rfl), (World.Alike.happen w rfl).meanwhile⟩
  unfold stop
  simp only [ensures_bind, find, ensures_find, onOk]
  refine ⟨fun c hc => ?_, fun hc => ?_⟩
  · split
    · rename_i i hr hs
      have he : w.halt k = (w.modifyController k fun c =>
          { c with session := none, state := .stopped }).modifySession i
            fun s => { s with stopped := true } := by
        simp [World.halt, hc, hr, hs]
      rw [he] at h ⊢
      simp only [ensures_bind, modify, ensures_change, onOk, Session.find, ensures_find,
        ensures_remark]
      refine ⟨fun x hx => ?_, fun hx => ?_⟩
      · have hremark := World.Alike.happen (e := .remarked (.stoppingClient x.name))
          ((w.modifyController k fun c => { c with session := none, state := .stopped
            }).modifySession i fun s => { s with stopped := true }) rfl
        have hcalled := hremark.meanwhile.trans (World.meanwhile_callSession (k := k) (fun c' hc' => by
          obtain rfl := Option.some.inj ((getElem?_modify_self _ hc).symm.trans hc')
          simp) (.stop i))
        rw [stopSession, ensures_bind, ensures_change]
        refine (Session.ensures_stop_sound (i := i) ?_).mono fun _ w' hw' =>
          ⟨hw'.1, hcalled.trans hw'.2⟩
        exact (h.alike hremark).callSession k (.stop i)
      · rw [World.modifySession_eq_self fun y hy => by rw [hx] at hy; cases hy] at h ⊢
        exact ⟨h, .refl _⟩
    · rename_i hne
      rw [ensures_remark]
      refine hidle ?_ _
      by_cases hr : c.state = .running
      · cases hs : c.session with
        | none => simp [World.halt, hc, hr, hs]
        | some i => exact absurd hs (hne i hr)
      · simp [World.halt, hc, hr]
  · have he : w.halt k = w := by simp [World.halt, hc]
    rw [he] at h ⊢
    exact ⟨h, .refl w⟩

end Controller

namespace Disposable

theorem ensures_dispose_sound {d : Nat} {x : Disposable} {w : World}
    (hx : w.disposables[d]? = some x)
    (h : w.Sound (if x.disposed then none else x.action.controller?) none) :
    (dispose d).Ensures (World.Sound none none) World.Meanwhile w fun _ w' =>
      w'.Sound none none := by
  unfold dispose
  simp only [ensures_bind, find, ensures_find, onOk]
  refine ⟨fun y hy => ?_, fun hn => by rw [hx] at hn; cases hn⟩
  rw [hx, Option.some.injEq] at hy
  subst hy
  split
  · rename_i hdis
    rwa [if_pos hdis] at h
  · rename_i hlive
    rw [if_neg hlive] at h
    simp only [ensures_bind, ensures_change, onOk]
    have hdisposed := h.dispose hx
    cases hact : x.action with
    | scripted name reaction =>
      rw [hact] at hdisposed
      exact ((Procedure.steady_request _).bind (fun _ => preserves_pure ()) _
        ⟨hdisposed, .refl _⟩).mono fun _ _ hw' => hw'.1
    | stopController k =>
      rw [hact] at hdisposed
      exact (Controller.ensures_stop_sound hdisposed.halt).mono fun _ _ hw' => hw'.1

end Disposable

namespace Context

/-- A registry that has been drained is empty, also when it grew in the meantime. -/
theorem ensures_dispose_sound (limit i : Nat) {w : World} (h : w.Sound none none) :
    (dispose limit i).Ensures (World.Sound none none) World.Meanwhile w fun r w' =>
      w'.Sound none none ∧
        ∀ u, r = .ok u → ∃ c, w'.contexts[i]? = some c ∧ c.subscriptions = [] := by
  induction limit generalizing w with
  | zero =>
    unfold dispose
    simp only [ensures_bind, find, ensures_find, onOk]
    refine ⟨fun c hc => ?_, fun _ => ⟨h, fun _ h => by cases h⟩⟩
    split
    · rename_i hlast
      exact ⟨h, fun _ _ => ⟨c, hc, List.getLast?_eq_none_iff.mp hlast⟩⟩
    · exact ⟨h, fun _ h => by cases h⟩
  | succ limit ih =>
    unfold dispose
    simp only [ensures_bind, find, ensures_find, onOk]
    refine ⟨fun c hc => ?_, fun _ => ⟨h, fun _ h => by cases h⟩⟩
    split
    · rename_i hlast
      exact ⟨h, fun _ _ => ⟨c, hc, List.getLast?_eq_none_iff.mp hlast⟩⟩
    · rename_i d hlast
      have hlt := h.registry.listed c (List.mem_of_getElem? hc) d (List.mem_of_getLast? hlast)
      have hx := List.getElem?_eq_getElem hlt
      simp only [ensures_bind, modify, ensures_change, onOk, disposeSubscription,
        ensures_recoverOrdinary]
      have hpop := h.pop hc hlast hx
      refine (Disposable.ensures_dispose_sound (w := w.modifyContext i _) hx hpop).mono
        fun r w' hw' => ?_
      cases r with
      | ok _ => exact ih hw'
      | error f => exact ⟨fun _ => ih (hw'.alike (.happen w' rfl)), fun _ => ⟨hw', fun _ h => by cases h⟩⟩

end Context

namespace World

/-- What a step finds after a procedure of its own, which may have changed what other steps leave
alone. -/
structure Later (w w' : World) : Prop where
  history : w.history.Evolves w'.history
  underWay : w'.history.underWay = w.history.underWay
  contexts : w.contexts.length ≤ w'.contexts.length
  bootstraps : w.bootstraps.length ≤ w'.bootstraps.length
  sessions : w.sessions.length ≤ w'.sessions.length
  made : ∀ i, i < w.sessions.length → w'.history.made i = true → w.history.made i = true

theorem Later.of_history_eq {w w' : World} (hh : w'.history = w.history)
    (hc : w'.contexts.length = w.contexts.length) (hb : w'.bootstraps.length = w.bootstraps.length)
    (hs : w'.sessions.length = w.sessions.length) : w.Later w' where
  history := hh ▸ .refl _
  underWay := by rw [hh]
  contexts := by omega
  bootstraps := by omega
  sessions := by omega
  made := fun i _ hm => hh ▸ hm

theorem Later.trans {w w' w'' : World} (h : w.Later w') (h' : w'.Later w'') : w.Later w'' where
  history := h.history.trans h'.history
  underWay := h'.underWay.trans h.underWay
  contexts := Nat.le_trans h.contexts h'.contexts
  bootstraps := Nat.le_trans h.bootstraps h'.bootstraps
  sessions := Nat.le_trans h.sessions h'.sessions
  made := fun i hi hm => h.made i hi (h'.made i (Nat.lt_of_lt_of_le hi h.sessions) hm)

theorem Meanwhile.later {w w' : World} (h : w.Meanwhile w') : w.Later w' where
  history := h.evolves.history
  underWay := h.underWay
  contexts := h.evolves.contexts
  bootstraps := h.evolves.bootstraps
  sessions := h.evolves.sessions_length
  made := by
    intro i hi hm
    obtain ⟨n, a, hn, hs⟩ := History.made_iff.mp hm
    by_cases hlt : n < w.history.activations.length
    · have hab := h.evolves.history.activation (List.getElem?_eq_getElem hlt) hn
      exact History.made_iff.mpr ⟨n, _, List.getElem?_eq_getElem hlt, hab.session.symm.trans hs⟩
    · have hle := h.evolves.fresh n a i (Nat.le_of_not_lt hlt) hn hs
      omega

theorem Later.refl (w : World) : w.Later w := .of_history_eq rfl rfl rfl rfl

theorem later_modifySession (w : World) (i : Nat) (f : Session → Session) :
    w.Later (w.modifySession i f) :=
  .of_history_eq rfl rfl rfl (by simp [World.modifySession])

theorem later_modifyController (w : World) (k : Nat) (f : Controller → Controller) :
    w.Later (w.modifyController k f) :=
  .of_history_eq rfl rfl rfl rfl

theorem later_callSession (w : World) (k : Nat) (c : SessionCall) : w.Later (w.callSession k c) :=
  .of_history_eq rfl rfl rfl rfl

theorem later_halt (w : World) (k : Nat) : w.Later (w.halt k) := by
  rcases w.halt_cases k with ⟨c, i, _, _, _, he⟩ | ⟨_, he⟩
  · rw [he]
    exact (w.later_modifyController k _).trans (later_modifySession _ i _)
  · rw [he]
    exact .refl w

/-- The session may be stopped at any later time, since no controller holds what an activation has
made or the host has meddled. -/
def Releasable (w : World) (i : Nat) : Prop :=
  ∀ w', w'.Sound none none → w.Later w' → w'.history.made i = true →
    w'.history.meddled = true ∨ ∀ k, ¬w'.Holds k i

theorem Releasable.later {w w' : World} {i : Nat} (h : w.Releasable i) (hl : w.Later w') :
    w'.Releasable i := fun w'' hs hl' => h w'' hs (hl.trans hl')

theorem Releasable.stop {w : World} {i : Nat} (h : w.Releasable i) (hs : w.Sound none none) :
    (w.modifySession i fun s => { s with stopped := true }).Sound none none :=
  hs.stopSession (h w hs (.refl w))

/-- A controller is starting, and has started the session that it is to hold. -/
abbrev setOff (w : World) (k i : Nat) : World :=
  ((w.modifyController k fun c => { c with state := .starting }).callSession k
    (.start i)).modifySession i fun s => { s with started := true }

theorem later_setOff (w : World) (k i : Nat) : w.Later (w.setOff k i) :=
  ((w.later_modifyController k _).trans (later_callSession _ k _)).trans (later_modifySession _ i _)

theorem Sound.setOff {w : World} {skip : Option Nat} {k : Nat} (h : w.Sound none skip)
    (hk : ∀ c, w.controllers[k]? = some c → c.state = .unstarted) (i : Nat) :
    (w.setOff k i).Sound none skip := by
  have hstarting := h.modifyController (f := fun c => { c with state := .starting })
    (fun c hc => .inl (hk c hc)) fun c => ⟨rfl, .inl rfl⟩
  exact (hstarting.callSession k (.start i)).tame
    (tame_modifySession _ i fun x _ => ⟨rfl, rfl, fun _ => rfl, rfl⟩) rfl rfl rfl

/-- A controller that has set off is left alone. -/
theorem Meanwhile.starting {w w' : World} {k i : Nat} {c : Controller}
    (hm : (w.setOff k i).Meanwhile w') (hc : w.controllers[k]? = some c) :
    w'.controllers[k]? = some { c with state := .starting } :=
  hm.evolves.controller (getElem?_modify_self _ hc) (by simp) (by simp)

/-- A bootstrap without a controller has no activation with a session that runs. -/
theorem Sound.quieted {w : World} (h : w.Sound none none) {b : Nat} (hb : w.current b = none)
    (ended : List Nat) : w.Quieted (b + 1) ended := by
  intro n a i _ ha hab hlost hi hlog hr
  rcases (h.owns_at ha hi).running hr with ⟨hret, hnlog⟩ | ⟨k, _, _, hcur⟩
  · rcases hlog with hret' | hlog
    · rw [hret] at hret'
      cases hret'
    · exact hnlog hlog
  · have hnum : a.bootstrap.toNat - 1 = b := by omega
    rw [hnum, hb] at hcur
    rcases hcur nofun with hl | ⟨_, hcur⟩
    · exact hlost hl
    · cases hcur

theorem Quieted.meanwhile {w w' : World} {b : Int} {ended : List Nat} (hq : w.Quieted b ended)
    (h : w.Sound none none) (hlt : ∀ n ∈ ended, n < w.history.activations.length)
    (hm : w.Meanwhile w') : w'.Quieted b ended := by
  intro n a' i hn ha' hb hlost hi hlog hr
  obtain ⟨a, ha⟩ : ∃ a, w.history.activations[n]? = some a :=
    ⟨_, List.getElem?_eq_getElem (hlt n hn)⟩
  have hev := hm.evolves.history.activation ha ha'
  have hi' := hev.session.symm.trans hi
  obtain ⟨y, hy, hstart⟩ := (h.owns_at ha hi').session
  obtain ⟨z, hz, hyz⟩ := hm.evolves.sessions i y hy
  refine hq n a i hn ha (hev.bootstrap.symm.trans hb) (hev.not_lost hlost) hi' ?_ ?_
  · exact hlog.imp (fun hret => hev.returned ▸ hret) hm.evolves.unrefused
  · obtain ⟨z', hz', hzr⟩ := hr
    rw [hz, Option.some.injEq] at hz'
    subst hz'
    exact ⟨y, hy, hyz.isRunning hstart hzr⟩

theorem Quieted.mono {w : World} {b : Int} {ended ended' : List Nat} (h : w.Quieted b ended)
    (hsub : ended' ⊆ ended) : w.Quieted b ended' :=
  fun n a i hn => h n a i (hsub hn)

/-- The activations that have ended so far. -/
def allEnded (w : World) : List Nat := w.history.ended w.history.activations.length

theorem mem_allEnded {w : World} {n : Nat} :
    n ∈ w.allEnded ↔ ∃ a, w.history.activations[n]? = some a ∧ a.answer.isSome = true := by
  rw [allEnded, History.mem_ended]
  refine ⟨fun h => h.2, fun ⟨a, ha, hans⟩ => ⟨(List.getElem?_eq_some_iff.mp ha).1, a, ha, hans⟩⟩

/-- What is under way stays so while steps within it end. -/
theorem Later.ended_subset {w w' : World} (h : w.Later w') :
    w'.history.ended w.history.activations.length ⊆ w.allEnded := by
  intro n hn
  obtain ⟨hlt, a', ha', hans⟩ := History.mem_ended.mp hn
  have ha := List.getElem?_eq_getElem hlt
  exact mem_allEnded.mpr ⟨_, ha, (h.history.activation ha ha').answer ▸ hans⟩

theorem later_drop (w : World) (b : Nat) : w.Later (w.hold b none) where
  history := by
    rw [history_hold]
    refine ⟨fun n a ha => ⟨_, by rw [History.getElem?_hold, ha]; rfl, ?_⟩, id⟩
    exact History.rehold_evolves (by simp) _ a
  underWay := by
    rw [history_hold]
    rfl
  contexts := Nat.le_refl _
  bootstraps := by simp [World.hold, World.happen, World.modifyBootstrap]
  sessions := Nat.le_refl _
  made := by
    intro i _ hm
    rw [history_hold] at hm
    obtain ⟨n, a', ha', hs⟩ := History.made_iff.mp hm
    rw [History.getElem?_hold] at ha'
    obtain ⟨a, ha, rfl⟩ := Option.map_eq_some_iff.mp ha'
    obtain ⟨hold, he⟩ := w.history.rehold_eq (b + 1) none.isSome n a
    rw [he] at hs
    exact History.made_iff.mpr ⟨n, a, ha, hs⟩

end World

namespace Bootstrap

theorem ensures_deactivate_sound {b : Nat} {w : World} (h : w.Sound none none) :
    (deactivate b).Ensures (World.Sound none none) World.Meanwhile w fun r w' =>
      w'.Sound none none ∧ w.Later w' ∧ ∀ u, r = .ok u → w'.Quieted (b + 1) w.allEnded := by
  unfold deactivate
  simp only [ensures_bind, find, ensures_find, onOk]
  refine ⟨fun x hx => ?_, fun _ => ⟨h, .refl w, fun _ h => by cases h⟩⟩
  cases hk : x.controller with
  | none =>
    refine ⟨h, .refl w, fun _ _ => h.quieted ?_ _⟩
    simp [World.current, hx, hk]
  | some k =>
    simp only [ensures_bind, hold, ensures_change, onOk]
    have hgive := (h.giveUp (b := b) (k := k) (by simp [World.current, hx, hk])).halt
    have hlater := (w.later_drop b).trans (World.later_halt _ k)
    refine (Controller.ensures_stop_sound hgive).mono fun r w' hw' =>
      ⟨hw'.1, hlater.trans hw'.2.later, fun u _ => ?_⟩
    refine (hgive.quieted (b := b) ?_ _).meanwhile hgive (fun n hn => ?_) hw'.2
    · rcases World.halt_cases (w.hold b none) k with ⟨c, i, _, _, _, he⟩ | ⟨_, he⟩
      · rw [he]
        simp [World.current, World.modifySession, World.modifyController, World.hold,
          World.happen, World.modifyBootstrap, hx]
      · rw [he]
        simp [World.current, World.hold, World.happen, World.modifyBootstrap, hx]
    · exact Nat.lt_of_lt_of_le (History.mem_ended.mp hn).1 hlater.history.length_le

theorem ensures_replacePrevious_sound {b : Nat} {w : World} (h : w.Sound none none) :
    (replacePrevious b).Ensures (World.Sound none none) World.Meanwhile w fun r w' =>
      w'.Sound none none ∧ w.Later w' ∧ ∀ u, r = .ok u → w'.Quieted (b + 1) w.allEnded := by
  unfold replacePrevious
  simp only [ensures_bind, find, ensures_find, onOk]
  refine ⟨fun x hx => ?_, fun _ => ⟨h, .refl w, fun _ h => by cases h⟩⟩
  cases hk : x.controller with
  | none =>
    refine ⟨h, .refl w, fun _ _ => h.quieted ?_ _⟩
    simp [World.current, hx, hk]
  | some k =>
    have hremark := World.Alike.happen (e := .remarked .alreadyActivated) w rfl
    simp only [Option.isSome_some, if_true, ensures_bind, ensures_remark, onOk]
    refine (ensures_deactivate_sound (w := w.remark .alreadyActivated) (h.alike hremark)).mono
      fun r w' hw' => ⟨hw'.1, hremark.meanwhile.later.trans hw'.2.1, fun u hu => ?_⟩
    have hq := hw'.2.2 u hu
    rwa [World.allEnded, World.history_remark] at hq

end Bootstrap

namespace Controller

theorem ensures_startFailed_sound {k i : Nat} {w : World} (name : Value) (fault : Fault)
    (h : (w.modifyController k fun c => { c with state := .failed }).Sound none none)
    (hk : k < w.controllers.length) (hlt : i < w.sessions.length) (hi : w.Releasable i) :
    (startFailed k i name fault).Ensures (World.Sound none none) World.Meanwhile w fun r w' =>
      w'.Sound none none ∧ w.Later w' ∧ ∀ u, r = .ok u →
        (∃ c, w'.controllers[k]? = some c ∧ c.state = .failed) ∧
          ∃ x, w'.sessions[i]? = some x ∧ x.stopped = true := by
  have hlater := w.later_modifyController k fun c => { c with state := .failed }
  have hc := getElem?_modify_self (fun c : Controller => { c with state := .failed })
    (List.getElem?_eq_getElem hk)
  have hnotify : ∀ w₀ n, (notifyFailure n fault).Steady w₀ := by
    intro w₀ n
    unfold notifyFailure
    split
    · exact preserves_pure ()
    · exact (confined_notify (fun _ => rfl) _ _).steady
  unfold startFailed
  simp only [ensures_bind, modify, ensures_change, onOk, ensures_remark, find, ensures_find]
  have hremark := World.Alike.happen (e := .remarked (.startFailed name fault))
    (w.modifyController k fun c => { c with state := .failed }) rfl
  refine ⟨fun c _ => ?_, fun hn => by cases hc.symm.trans hn⟩
  refine (hnotify _ _ _ ⟨h.alike hremark, hremark.meanwhile⟩).mono fun r w₁ hw₁ => ?_
  have hl₁ := hlater.trans hw₁.2.later
  cases r with
  | error f => exact ⟨hw₁.1, hl₁, fun _ h => by cases h⟩
  | ok _ =>
    have hc₁ := hw₁.2.evolves.controller hc (by simp) (by simp)
    have hlt₁ : i < w₁.sessions.length := Nat.lt_of_lt_of_le hlt hl₁.sessions
    have hl₁' := hl₁.trans (w₁.later_callSession k (.stop i))
    simp only [release, ensures_recoverOrdinary, stopSession, ensures_bind, ensures_change, onOk]
    refine (Session.ensures_stop_sound ((hi.later hl₁').stop (hw₁.1.callSession k _))).mono
      fun r w₂ hw₂ => ?_
    have hl₂ : w.Later w₂ := (hl₁'.trans (World.later_modifySession _ i _)).trans hw₂.2.later
    have hfailed : ∃ c, w₂.controllers[k]? = some c ∧ c.state = .failed :=
      ⟨_, hw₂.2.evolves.controller hc₁ (by simp) (by simp), rfl⟩
    have hstopped : ∃ x, w₂.sessions[i]? = some x ∧ x.stopped = true := by
      obtain ⟨y, hy, hxy⟩ := hw₂.2.evolves.sessions i _
        (getElem?_modify_of_some _ (List.getElem?_eq_getElem hlt₁))
      exact ⟨y, hy, hxy.stopped (by simp)⟩
    cases r with
    | ok _ => exact ⟨hw₂.1, hl₂, fun _ _ => ⟨hfailed, hstopped⟩⟩
    | error f =>
      have hremark₂ := World.Alike.happen (e := .remarked (.releaseFailed f)) w₂ rfl
      exact ⟨fun _ => ⟨hw₂.1.alike hremark₂, hl₂.trans hremark₂.meanwhile.later,
        fun _ _ => ⟨hfailed, hstopped⟩⟩, fun _ => ⟨hw₂.1, hl₂, fun _ h => by cases h⟩⟩

/-- How the start of a controller ends. When it runs, its session was ready just before. -/
inductive StartOutcome (w : World) (k i context : Nat) : Except Fault Bool → World → Prop where
  | refused {f : Fault} (h : ∀ c, w.controllers[k]? = some c → c.state ≠ .unstarted) :
    StartOutcome w k i context (.error f) w
  | failed {r : Except Fault Bool} {w' : World} (hs : w'.Sound none none) (hl : w.Later w')
    (hr : ∀ b, r = .ok b → b = false ∧ (∃ c, w'.controllers[k]? = some c ∧ c.state = .failed) ∧
      ∃ x, w'.sessions[i]? = some x ∧ x.stopped = true) : StartOutcome w k i context r w'
  | running {p : Posting} {r : Remark} {w' : World}
    (hk : ∃ c, w.controllers[k]? = some c ∧ c.state = .unstarted) (hx : Session.Fresh w i)
    (hs : w'.Sound none none)
    (hm : (w.setOff k i).Meanwhile w') :
    StartOutcome w k i context (.ok true)
      ((addSubscription (.stopController k) context
        (((w'.modifySession i fun s => { s with initialized := true }).post p).modifyController k
          fun c => { c with session := some i, state := .running })).remark r)

/-- Whatever made the start fail, the controller is marked and the session released. -/
theorem startOutcome_startFailed {k i context : Nat} {w v : World} (name : Value) (f : Fault)
    (hv : v.Sound none none) (hl : w.Later v)
    (hk : ∃ c, v.controllers[k]? = some c ∧ c.state = .starting) (hlt : i < w.sessions.length)
    (hi : w.Releasable i) :
    (startFailed k i name f).Ensures (World.Sound none none) World.Meanwhile v
      (onOk (fun _ w' => StartOutcome w k i context (.ok false) w')
        (StartOutcome w k i context)) := by
  obtain ⟨c, hc, hst⟩ := hk
  have hfailed : (v.modifyController k fun c => { c with state := .failed }).Sound none none := by
    refine hv.modifyController (fun c' hc' => .inr ?_) fun c => ⟨rfl, .inr rfl⟩
    rw [hc, Option.some.injEq] at hc'
    exact hc' ▸ hst
  refine (ensures_startFailed_sound name f hfailed (List.getElem?_eq_some_iff.mp hc).1
    (Nat.lt_of_lt_of_le hlt hl.sessions) (hi.later hl)).mono fun r w' hw' => ?_
  cases r with
  | ok _ => exact .failed hw'.1 (hl.trans hw'.2.1) fun b hb =>
      ⟨(Except.ok.inj hb).symm, hw'.2.2 () rfl⟩
  | error f => exact .failed hw'.1 (hl.trans hw'.2.1) fun _ h => by cases h

theorem ensures_start_sound {k i context : Nat} {w : World} (hlt : i < w.sessions.length)
    (hused : (∀ x, w.sessions[i]? = some x → x.started = true ∨ x.stopped = true) →
      w.Sound none none)
    (hfresh : (∃ c, w.controllers[k]? = some c ∧ c.state = .unstarted) →
      Session.Fresh w i → (w.setOff k i).Sound none none)
    (hunlogged : Session.Fresh w i → ∀ w' p, w'.Sound none none → (w.setOff k i).Meanwhile w' →
      ¬((w'.modifySession i fun s => { s with initialized := true }).happen
        (.refused p)).Unrefused i →
      ((w'.modifySession i fun s => { s with initialized := true }).happen
        (.refused p)).Sound none none)
    (hi : w.Releasable i) :
    (start k i context).Ensures (World.Sound none none) World.Meanwhile w
      (StartOutcome w k i context) := by
  unfold start
  simp only [ensures_bind, find, ensures_find, onOk]
  refine ⟨fun c hc => ?_, fun hn => .refused fun c hc => by rw [hn] at hc; cases hc⟩
  split
  · rename_i hguard
    refine .refused fun c' hc' => ?_
    rw [hc, Option.some.injEq] at hc'
    exact hc' ▸ hguard
  · rename_i hguard
    have hun := Decidable.not_not.mp hguard
    have hunstarted : ∀ c', w.controllers[k]? = some c' → c'.state = .unstarted := fun c' hc' => by
      rw [hc, Option.some.injEq] at hc'
      exact hc' ▸ hun
    simp only [ensures_bind, modify, ensures_change, onOk, Session.find, ensures_find,
      ensures_remark]
    refine ⟨fun x hx => ?_, fun hn => ?_⟩
    · have hremark := World.Alike.happen (e := .remarked (.startingClient x.name))
        (w.modifyController k fun c => { c with state := .starting }) rfl
      have hready := World.Alike.happen (e := .remarked (.startingClient x.name)) (w.setOff k i) rfl
      simp only [ensures_recoverOrdinary, startSession, ensures_bind, ensures_change, onOk, ensures_pure]
      refine (Session.ensures_start_sound (i := i) fun hx => ?_).mono fun r v hv => ?_
      · exact (hfresh ⟨c, hc, hun⟩ hx).alike hready
      · cases hv with
        | refused hx =>
          have hs := (hused hx).modifyController (k := k) (f := fun c => { c with state := .starting })
            (fun c' hc' => .inl (hunstarted c' hc')) fun c => ⟨rfl, .inl rfl⟩
          have hl := ((w.later_modifyController k _).trans hremark.meanwhile.later).trans
            (World.later_callSession _ k (.start i))
          have hs' := (hs.alike hremark).callSession k (.start i)
          exact ⟨fun _ => startOutcome_startFailed _ _ hs' hl
              ⟨_, getElem?_modify_self _ hc, rfl⟩ hlt hi,
            fun _ => .failed hs' hl fun _ h => by cases h⟩
        | failed hs hm =>
          have hm' := hready.meanwhile.trans hm
          have hl := (w.later_setOff k i).trans hm'.later
          exact ⟨fun _ => startOutcome_startFailed _ _ hs hl ⟨_, hm'.starting hc, rfl⟩ hlt hi,
            fun _ => .failed hs hl fun _ h => by cases h⟩
        | @unlogged _ p w₁ hx hs hm hlog =>
          have hm' := hready.meanwhile.trans hm
          have hs' := hunlogged hx _ p hs hm' hlog
          have hrefused := World.Alike.happen (e := .refused p)
            (w₁.modifySession i fun s => { s with initialized := true }) rfl
          have hl := (((w.later_setOff k i).trans hm'.later).trans
            (w₁.later_modifySession i _)).trans hrefused.meanwhile.later
          exact ⟨fun _ => startOutcome_startFailed _ _ hs' hl ⟨_, hm'.starting hc, rfl⟩ hlt hi,
            fun _ => .failed hs' hl fun _ h => by cases h⟩
        | running hx hs hm => exact .running ⟨c, hc, hun⟩ hx hs (hready.meanwhile.trans hm)
    · rw [List.getElem?_eq_none_iff] at hn
      exact absurd hlt (Nat.not_lt_of_le hn)

end Controller

namespace World

/-- An activation is the innermost step under way, and has made the session given or none yet. -/
structure Working (n : Nat) (b c : Int) (session : Option Nat) (w : World) : Prop where
  activation : ∃ a, w.history.activations[n]? = some a ∧ a.bootstrap = b ∧ a.context = c ∧
    a.session = session ∧ a.answer = none
  underWay : ∃ rest, w.history.underWay = ⟨.activate b c, n⟩ :: rest

variable {n : Nat} {b c : Int} {session : Option Nat} {w w' : World}

theorem working_begin (w : World) (b c : Int) :
    (w.happen (.began (.activate b c))).Working w.history.activations.length b c none where
  activation := by
    rw [history_happen]
    exact ⟨_, History.getElem?_begin_activate _ b c, rfl, rfl, rfl, rfl⟩
  underWay := by
    rw [history_happen]
    exact ⟨_, rfl⟩

theorem Working.later (h : w.Working n b c session) (hl : w.Later w') :
    w'.Working n b c session where
  activation := by
    obtain ⟨a, ha, hb, hc, hs, hopen⟩ := h.activation
    obtain ⟨a', ha', hev⟩ := hl.history.kept n a ha
    exact ⟨a', ha', hev.bootstrap.trans hb, hev.context.trans hc, hev.session.trans hs,
      hev.answer.trans hopen⟩
  underWay := by
    rw [hl.underWay]
    exact h.underWay

theorem Working.innermost? (h : w.Working n b c session) : w.history.innermost? = some n := by
  obtain ⟨rest, hu⟩ := h.underWay
  exact History.innermost?_activate hu

/-- No controller holds the session of an activation that is under way. -/
theorem Working.unheld {i : Nat} (hw : w.Working n b c (some i)) (h : w.Sound none none) (k : Nat) :
    ¬w.Holds k i := by
  intro hk
  obtain ⟨a, ha, _, _, hs, hopen⟩ := hw.activation
  have hans := ((h.owns_at ha hs).held k hk).1
  rw [hopen] at hans
  cases hans

/-- What an activation under way has made is left to it. -/
theorem Working.spared {i : Nat} (hw : w.Working n b c (some i)) (h : w.Sound none none) :
    w.Spared i where
  started := by
    obtain ⟨a, ha, _, _, hs, _⟩ := hw.activation
    exact (h.owns_at ha hs).session
  made := by
    obtain ⟨a, ha, _, _, hs, _⟩ := hw.activation
    exact History.made_iff.mpr ⟨n, a, ha, hs⟩
  unheld := hw.unheld h

/-- The session of an activation under way is no other's. -/
theorem Working.only {i : Nat} (hw : w.Working n b c (some i)) (h : w.Sound none none) {m : Nat}
    {a : Activation} (ha : w.history.activations[m]? = some a) (hs : a.session = some i) :
    some n = some m ∧ a.answer = none := by
  obtain ⟨x, hx, _, _, hxs, hopen⟩ := hw.activation
  have hnm := h.owned.distinct n m x a i hx ha hxs hs
  subst hnm
  rw [hx, Option.some.injEq] at ha
  exact ⟨rfl, ha ▸ hopen⟩

/-- An activation may end with a fault at any time. -/
theorem Sound.fail (h : w.Sound none none) (hw : w.Working n b c session) (f : Fault) :
    (w.happen (.ended (.error f))).Sound none none := by
  obtain ⟨a, ha, _, _, hs, hopen⟩ := hw.activation
  obtain ⟨rest, hu⟩ := hw.underWay
  refine h.finish_activate nofun hu ha hopen _ (fun i hi => ?_) nofun
  have ho := h.owns_at ha hi
  refine ⟨ho.session, ho.bootstrap, fun hr => ?_, fun k hk => ?_⟩
  · rcases ho.running hr with ⟨_, hlog⟩ | ⟨k, hans, _⟩
    · exact .inl ⟨rfl, hlog⟩
    · rw [hopen] at hans
      cases hans
  · have hans := (ho.held k hk).1
    rw [hopen] at hans
    cases hans

/-- The session of an activation under way may be marked as initialized when that cannot be logged. -/
theorem Sound.initialize_unlogged {i : Nat} (h : w.Sound none none) (hw : w.Working n b c (some i))
    {p : Posting} (hlog : ¬((w.modifySession i fun s => { s with initialized := true }).happen
      (.refused p)).Unrefused i) :
    ((w.modifySession i fun s => { s with initialized := true }).happen (.refused p)).Sound
      none none := by
  have hinit := h.markInitialized fun m a ha hs => hw.only h ha hs
  refine (hinit.alike (.happen (e := .refused p) _ rfl)).unskip fun a j ha hj => ?_
  rw [history_happen] at ha
  obtain ⟨a', ha', _, _, hs, hopen⟩ := hw.activation
  obtain rfl := Option.some.inj (ha'.symm.trans ha)
  obtain rfl := Option.some.inj (hs.symm.trans hj)
  have ho := h.owns_at ha' hs
  obtain ⟨x, hx, hstart⟩ := ho.session
  refine ⟨⟨_, getElem?_modify_self _ hx, hstart⟩, ho.bootstrap, fun _ => .inl ⟨?_, hlog⟩,
    fun k hk => absurd hk (hw.unheld h k)⟩
  simp [Activation.returned, hopen]

/-- An activation may answer a controller that has failed, once its session has been stopped. -/
theorem Sound.answer_failed {k i : Nat} (h : w.Sound none none) (hw : w.Working n b c (some i))
    (hk : ∃ c, w.controllers[k]? = some c ∧ c.state = .failed)
    (hi : ∃ x, w.sessions[i]? = some x ∧ x.stopped = true) :
    (w.happen (.ended (.ok (.activated k)))).Sound none none := by
  obtain ⟨a, ha, _, _, hs, hopen⟩ := hw.activation
  obtain ⟨rest, hu⟩ := hw.underWay
  obtain ⟨x, hx, hstop⟩ := hi
  obtain ⟨y, hy, hfail⟩ := hk
  refine h.finish_activate nofun hu ha hopen _ (fun j hj => ?_) fun m hm => ?_
  · have hji := Option.some.inj (hs.symm.trans hj)
    subst hji
    have ho := h.owns_at ha hj
    refine ⟨ho.session, ho.bootstrap, fun hr => ?_, fun m hm => absurd hm (hw.unheld h m)⟩
    obtain ⟨x', hx', hr⟩ := hr
    rw [hx, Option.some.injEq] at hx'
    simp [← hx', Session.isRunning, hstop] at hr
  · cases hm
    refine ⟨y, hy, ?_, ?_, fun hrun => ?_⟩ <;> simp_all

/-- The last changes of a start that succeeds, all without a call in between: the session is marked
as initialized, the controller takes it, and is registered for cleanup. -/
theorem Sound.run_registered {skip : Option Nat} {k i : Nat} {v : World} {x : Controller}
    (h : w.Sound none none) (context : Nat)
    (honly : ∀ (m : Nat) (a : Activation), w.history.activations[m]? = some a →
      a.session = some i → skip = some m ∧ a.answer = none)
    (hlt : i < w.sessions.length) (hx : w.controllers[k]? = some x) (hst : x.state = .starting)
    (hv : (w.modifySession i fun s => { s with initialized := true }).Alike v) :
    (addSubscription (.stopController k) context
      (v.modifyController k fun c => { c with session := some i, state := .running })).Sound
        none skip := by
  have hh : v.history = w.history := hv.history
  have hxv : v.controllers[k]? = some x := by rw [hv.controllers]; exact hx
  have hinit : v.Sound none skip := (h.markInitialized honly).alike hv
  have hrun := hinit.run hxv hst (by rw [hv.sessions]; simpa [World.modifySession] using hlt)
    fun m a' ha' hs' => (honly m a' (hh ▸ ha') hs').1
  have hadd := hrun.addDisposable (.stopController k) fun m hm => by
    cases hm
    exact ⟨_, getElem?_modify_self _ hxv, .inl rfl⟩
  refine hadd.register (by simp [EditorClient.addDisposable, World.modifyController])
    fun a' ha' m hans => ?_
  refine (World.binds_addDisposable_new _ m).trans ?_
  -- No activation has answered a controller that was starting.
  obtain ⟨y, hy, _, hne, _⟩ := hinit.registry.answered a' ha' m hans
  have hkm : k ≠ m := by
    rintro rfl
    rw [hxv, Option.some.injEq] at hy
    exact hne (hy ▸ hst)
  simpa [CleanUp.controller?] using hkm

/-- A controller that has just begun to run has one registration. -/
theorem Sound.registered_running {k i context : Nat} {v : World} {x : Controller}
    (h : w.Sound none none) (hlt : context < w.contexts.length)
    (hx : w.controllers[k]? = some x) (hst : x.state = .starting)
    (hv : (w.modifySession i fun s => { s with initialized := true }).Alike v) :
    (addSubscription (.stopController k) context
      (v.modifyController k fun c => { c with session := some i, state := .running })).Registered
        (context + 1) k := by
  refine registered_addSubscription ?_ ?_ fun d => ?_
  · change context < v.contexts.length
    rw [hv.contexts]
    exact hlt
  · change ∀ c ∈ v.contexts, ∀ d ∈ c.subscriptions, d < v.disposables.length
    rw [hv.contexts, hv.disposables]
    exact h.registry.listed
  · -- What is bound to a controller has seen it run.
    refine Bool.eq_false_iff.mpr fun hb => ?_
    obtain ⟨y, hy, hact⟩ := binds_eq_true.mp hb
    change v.disposables[d]? = some y at hy
    rw [hv.disposables] at hy
    obtain ⟨z, hz, hzst⟩ := h.registry.bound d y k hy hact
    rw [hx, Option.some.injEq] at hz
    rw [← hz, hst] at hzst
    rcases hzst with hzst | hzst <;> cases hzst

/-- An activation that answers the controller which has just taken its session owns that session. -/
theorem Working.owns_running {k i context : Nat} {v : World} {x : Controller} {a : Activation}
    (hw : w.Working n b c (some i)) (h : w.Sound none none)
    (ha : w.history.activations[n]? = some a) (hx : w.controllers[k]? = some x)
    (hcur : a.hold = .lost ∨ a.hold = .current ∧ w.current (b.toNat - 1) = some k)
    (hlive : w.history.meddled = false → ∃ x, w.sessions[i]? = some x ∧ x.stopped = false)
    (hv : (w.modifySession i fun s => { s with initialized := true }).Alike v) (r : Remark) :
    ((addSubscription (.stopController k) context
      (v.modifyController k fun c => { c with session := some i, state := .running })).remark
        r).Owns none { a with answer := some (.ok (.activated k)) } i := by
  obtain ⟨a', ha', hab, _, hs, _⟩ := hw.activation
  obtain rfl := Option.some.inj (ha'.symm.trans ha)
  have ho := h.owns_at ha hs
  have hkrun := getElem?_modify_self
    (fun c : Controller => { c with session := some i, state := .running })
    (hv.controllers ▸ hx : v.controllers[k]? = some x)
  obtain ⟨y, hy, hstart⟩ := ho.session
  have hyv : v.sessions[i]? = some { y with initialized := true } := by
    rw [hv.sessions]
    exact getElem?_modify_self _ hy
  refine ⟨⟨_, hyv, hstart⟩, ho.bootstrap, fun _ => .inr ⟨k, rfl, ⟨_, hkrun, rfl⟩, fun _ => ?_⟩,
    fun m hm => ?_⟩
  · refine hcur.imp_right fun ⟨hc, hcur⟩ => ⟨hc, ?_⟩
    change (v.bootstraps[a'.bootstrap.toNat - 1]?).bind _ = some k
    rw [hv.bootstraps, hab]
    exact hcur
  · rcases holds_of_run hm with ⟨rfl, _⟩ | ⟨z, hz, hzs⟩
    · refine ⟨rfl, fun hmed => ⟨_, hyv, ?_⟩⟩
      rw [World.history_remark] at hmed
      obtain ⟨y', hy', hstop⟩ := hlive (hv.history ▸ hmed)
      rw [hy, Option.some.injEq] at hy'
      simp [Session.isRunning, hy', hstop]
    · exact absurd ⟨z, by rw [← hz, hv.controllers]; rfl, hzs⟩ (hw.unheld h m)

/-- An activation may answer the controller that has just taken its session. -/
theorem Sound.answer_running {k i context : Nat} {v : World} (h : w.Sound none none)
    (hw : w.Working n b c (some i)) (hctx : c = context + 1) (hlt : context < w.contexts.length)
    (hk : ∃ x, w.controllers[k]? = some x ∧ x.state = .starting)
    (hcur : ∀ a, w.history.activations[n]? = some a →
      a.hold = .lost ∨ a.hold = .current ∧ w.current (b.toNat - 1) = some k)
    (hlive : w.history.meddled = false → ∃ x, w.sessions[i]? = some x ∧ x.stopped = false)
    (hv : (w.modifySession i fun s => { s with initialized := true }).Alike v) (r : Remark) :
    (((addSubscription (.stopController k) context
      (v.modifyController k fun c => { c with session := some i, state := .running })).remark
        r).happen (.ended (.ok (.activated k)))).Sound none none := by
  obtain ⟨a, ha, _, hac, hs, hopen⟩ := hw.activation
  obtain ⟨rest, hu⟩ := hw.underWay
  obtain ⟨x, hx, hst⟩ := hk
  have hreg := h.run_registered context (fun m a' ha' hs' => hw.only h ha' hs')
    (h.owned.made a (List.mem_of_getElem? ha) i hs) hx hst hv
  have hend := World.Alike.happen (e := .remarked r) (addSubscription (.stopController k) context
    (v.modifyController k fun c => { c with session := some i, state := .running })) rfl
  have hhend := hend.history.trans hv.history
  refine (hreg.alike hend).finish_activate (fun m hm => (Option.some.inj hm).symm)
    (by rw [hhend]; exact hu) (by rw [hhend]; exact ha) hopen _ (fun j hj => ?_) fun m hm => ?_
  · obtain rfl := Option.some.inj (hs.symm.trans hj)
    exact hw.owns_running h ha hx (hcur a ha) hlive hv r
  · cases hm
    have hkrun := getElem?_modify_self
      (fun c : Controller => { c with session := some i, state := .running })
      (hv.controllers ▸ hx : v.controllers[k]? = some x)
    refine ⟨_, hkrun, by simp, by simp, fun _ => ?_⟩
    rw [hac, hctx]
    exact h.registered_running hlt hx hst hv

/-- The world once an activation has made its session and its controller. -/
def equip (w : World) (x : Session) (notifier : Notifier) : World :=
  addController ⟨notifier, none, .unstarted⟩
    ((addSession x w).happen (.madeClient w.sessions.length))

def launch (w : World) (x : Session) (notifier : Notifier) (i : Nat) : World :=
  (w.equip x notifier).hold i (some w.controllers.length)

theorem history_equip (w : World) (x : Session) (notifier : Notifier) :
    (w.equip x notifier).history = w.history.make w.sessions.length :=
  history_happen (addSession x w) _

theorem history_launch (w : World) (x : Session) (notifier : Notifier) (i : Nat) :
    (w.launch x notifier i).history = (w.history.make w.sessions.length).hold (i + 1) true := by
  rw [launch, history_hold, history_equip]
  rfl

theorem getElem?_sessions_launch (w : World) (x : Session) (notifier : Notifier) (i : Nat) :
    (w.launch x notifier i).sessions[w.sessions.length]? = some x := by
  simp [launch, equip, World.hold, World.modifyBootstrap, addController, World.happen, addSession]

theorem getElem?_controllers_launch (w : World) (x : Session) (notifier : Notifier) (i : Nat) :
    (w.launch x notifier i).controllers[w.controllers.length]? =
      some ⟨notifier, none, .unstarted⟩ := by
  simp [launch, equip, World.hold, World.modifyBootstrap, addController, World.happen, addSession]

theorem current_launch {i : Nat} (hi : i < w.bootstraps.length) (x : Session)
    (notifier : Notifier) : (w.launch x notifier i).current i = some w.controllers.length := by
  simp [launch, equip, World.current, World.hold, World.modifyBootstrap, addController,
    World.happen, addSession, List.getElem?_eq_getElem hi]

/-- The activation that launches a session is the one whose controller its bootstrap has. -/
theorem Working.activation_launch (hw : w.Working n b c none) (x : Session) (notifier : Notifier)
    (i : Nat) : ∃ a, (w.launch x notifier i).history.activations[n]? = some a ∧ a.bootstrap = b ∧
      a.context = c ∧ a.session = some w.sessions.length ∧ a.answer = none ∧ a.hold = .current := by
  obtain ⟨a, ha, hab, hac, _, hopen⟩ := hw.activation
  obtain ⟨rest, hu⟩ := hw.underWay
  refine ⟨{ a with session := some w.sessions.length, hold := .current }, ?_, hab, hac, rfl, hopen,
    rfl⟩
  rw [history_launch, History.getElem?_hold, History.make_activate hu, getElem?_modify_self _ ha,
    Option.map_some, History.rehold, if_pos ⟨rfl, hw.innermost?⟩]

theorem Working.launch (hw : w.Working n b c none) (x : Session) (notifier : Notifier) (i : Nat) :
    (w.launch x notifier i).Working n b c (some w.sessions.length) where
  activation := by
    obtain ⟨a, ha, hab, hac, hs, hopen, _⟩ := hw.activation_launch x notifier i
    exact ⟨a, ha, hab, hac, hs, hopen⟩
  underWay := by
    obtain ⟨rest, hu⟩ := hw.underWay
    rw [history_launch, History.make_activate hu]
    exact ⟨rest, hu⟩

/-- The bootstrap takes the new controller. What has it before is stopped, or loses it by this. -/
theorem Sound.launch {w₀ : World} {i : Nat} (h : w.Sound none none) (hw : w.Working n b c none)
    (hb : b = i + 1) (hl : w₀.Later w) (hq : w.Quieted b w₀.allEnded)
    (hn : n ≤ w₀.history.activations.length) {x : Session} (hx : x.isRunning = false)
    (notifier : Notifier) : (w.launch x notifier i).Sound none (some n) := by
  obtain ⟨rest, hu⟩ := hw.underWay
  have hmade := (history_equip w x notifier).trans (History.make_activate hu _)
  have hinner : (w.equip x notifier).history.innermost? = some n := by
    rw [hmade]
    exact hw.innermost?
  refine ((h.make hu hx).addController notifier).takeUp _ (fun m hm => ?_)
    fun m a j hm ha hj hab hc hs hret => ?_
  · obtain rfl := Option.some.inj (hinner.symm.trans hm)
    obtain ⟨a, ha, _, _, _, hopen⟩ := hw.activation
    refine ⟨rfl, { a with session := some w.sessions.length }, ?_, hopen⟩
    change (w.equip x notifier).history.activations[n]? = _
    rw [hmade]
    exact getElem?_modify_self _ ha
  · change (w.equip x notifier).history.activations[m]? = _ at ha
    rw [hmade] at ha
    have hne : n ≠ m := by simpa using hm
    obtain ⟨y, hy, ⟨hnm, _⟩ | ⟨_, rfl⟩⟩ := getElem?_modify_cases ha
    · exact absurd hnm hne
    have hlt : ¬n < m := by
      change (w.equip x notifier).history.isSurprised true m a = false at hs
      simp only [History.isSurprised, hinner, Bool.and_eq_false_iff, bne_eq_false_iff_eq,
        Bool.or_eq_false_iff, Bool.true_and, decide_eq_false_iff_not] at hs
      exact hs.elim (fun he => absurd he.symm hne) And.right
    have hans : a.answer.isSome = true := by
      unfold Activation.returned at hret
      split at hret
      · rename_i h'
        rw [h']
        rfl
      · cases hret
    have hmem : m ∈ w₀.allEnded := hl.ended_subset (History.mem_ended.mpr
      ⟨Nat.lt_of_lt_of_le (by omega) hn, a, hy, hans⟩)
    have hruns := hq m a j hmem hy (hab.trans hb.symm) (by rw [hc]; exact nofun) hj (.inl hret)
    have hjlt := h.owned.made a (List.mem_of_getElem? hy) j hj
    rintro ⟨z, hz, hzr⟩
    refine hruns ⟨z, ?_, hzr⟩
    change (w.sessions ++ [x])[j]? = some z at hz
    rwa [List.getElem?_append_left hjlt] at hz

/-- The new session is started at once, with no call in between. -/
theorem Sound.start_launched {w₀ : World} {i : Nat} (h : w.Sound none none)
    (hw : w.Working n b c none) (hb : b = i + 1) (hl : w₀.Later w) (hq : w.Quieted b w₀.allEnded)
    (hn : n ≤ w₀.history.activations.length) {x : Session} (hx : x.isRunning = false)
    (notifier : Notifier) :
    ((w.launch x notifier i).setOff w.controllers.length w.sessions.length).Sound none none := by
  have hstarted := (h.launch hw hb hl hq hn hx notifier).setOff (k := w.controllers.length)
    (fun c hc => by
      rw [getElem?_controllers_launch, Option.some.injEq] at hc
      exact hc ▸ rfl) w.sessions.length
  have hx' := getElem?_modify_self
    (fun s : Session => { s with started := true }) (getElem?_sessions_launch w x notifier i)
  obtain ⟨a, ha, hab, _, hs, _⟩ := (hw.launch x notifier i).activation
  refine hstarted.unskip fun a' j ha' hj => ?_
  have haa : a = a' := Option.some.inj (ha.symm.trans ha')
  subst haa
  have hji := Option.some.inj (hs.symm.trans hj)
  subst hji
  refine ⟨⟨_, hx', rfl⟩, by omega, ?_, fun k hk => ?_⟩
  · rintro ⟨y, hy, hr⟩
    have hxy := Option.some.inj (hx'.symm.trans hy)
    rw [← hxy] at hr
    have hr' : x.isRunning = true := hr
    rw [hx] at hr'
    cases hr'
  · have hk' := (tame_modifyController (w.launch x notifier i) w.controllers.length
      (f := fun c => { c with state := .starting }) fun _ => rfl).holds k w.sessions.length |>.mp hk
    have hlt := h.owned.held k _ ((holds_addController notifier _ k _).mp hk')
    exact absurd hlt (Nat.lt_irrefl _)

end World

namespace Bootstrap

variable {i context n : Nat} {b c : Int} {w w₀ : World}

/-- The end of an activation whose controller has been told to start its session. -/
theorem ensures_start_launched_sound (h : w.Sound none none) (hw : w.Working n b c none)
    (hb : b = i + 1) (hc : c = context + 1) (hi : i < w.bootstraps.length)
    (hctx : context < w.contexts.length) (hl : w₀.Later w) (hq : w.Quieted b w₀.allEnded)
    (hn : n ≤ w₀.history.activations.length) {x : Session}
    (hx : x.started = false ∧ x.stopped = false ∧ x.initialized = false) (notifier : Notifier) :
    (Controller.start w.controllers.length w.sessions.length context).Ensures
      (World.Sound none none) World.Meanwhile (w.launch x notifier i) fun r w' =>
        (w'.happen (.ended (r.map fun _ => .activated w.controllers.length))).Sound none none := by
  have hrun : x.isRunning = false := by simp [Session.isRunning, hx.2.2]
  have hsx := World.getElem?_sessions_launch w x notifier i
  have hcx := World.getElem?_controllers_launch w x notifier i
  have hready := h.start_launched hw hb hl hq hn hrun notifier
  have hwork := hw.launch x notifier i
  have hworking : ∀ w',
      ((w.launch x notifier i).setOff w.controllers.length w.sessions.length).Meanwhile w' →
        w'.Working n b c (some w.sessions.length) :=
    fun w' hm => hwork.later ((World.later_setOff _ _ _).trans hm.later)
  refine (Controller.ensures_start_sound (w := w.launch x notifier i)
    (List.getElem?_eq_some_iff.mp hsx).1 (fun hused => ?_) (fun _ _ => hready)
    (fun _ w' _ hs' hm' hlog => hs'.initialize_unlogged (hworking w' hm') hlog)
    fun w' hs' hl' _ => .inr fun k => (hwork.later hl').unheld hs' k).mono fun r w' hw' => ?_
  · rcases hused x hsx with hst | hst
    · rw [hx.1] at hst
      cases hst
    · rw [hx.2.1] at hst
      cases hst
  · cases hw' with
    | refused hne => exact absurd rfl (hne _ hcx)
    | failed hs hl hr =>
      have hwork' := hwork.later hl
      cases r with
      | error f => exact hs.fail hwork' f
      | ok b =>
        obtain ⟨_, hfail, hstop⟩ := hr b rfl
        exact hs.answer_failed hwork' hfail hstop
    | @running p r w₁ _ _ hs hm =>
      refine hs.answer_running (hworking w₁ hm) hc
        (Nat.lt_of_lt_of_le hctx hm.evolves.contexts) ⟨_, hm.starting hcx, rfl⟩
        (fun a ha => ?_) (fun hmed => ?_) (.post _ p) r
      · obtain ⟨a₀, ha₀, hb₀, _, _, hopen, hc₀⟩ := hw.activation_launch x notifier i
        refine (hm.evolves.current n a₀ a ha₀ hopen hc₀ (by omega) ha).imp_right fun hcur => ?_
        rw [← hb₀]
        refine ⟨hcur.1, hcur.2.trans ?_⟩
        rw [hb₀, show b.toNat - 1 = i by omega]
        exact World.current_launch hi x notifier
      · have hxs := getElem?_modify_self (fun s : Session => { s with started := true }) hsx
        obtain ⟨y, hy, _⟩ := hm.evolves.sessions w.sessions.length _ hxs
        have hspared := (hworking _ (.refl _)).spared hready
        have hsame := (hm.evolves.spared _ hspared hmed).2 _ _ hxs hy
        exact ⟨y, hy, hsame.trans hx.2.1⟩

/-- What an activation does once the previous session is out of the way. -/
theorem ensures_launch_sound (h : w.Sound none none) (hw : w.Working n b c none)
    (hb : b = i + 1) (hc : c = context + 1) (hi : i < w.bootstraps.length)
    (hctx : context < w.contexts.length) (hl : w₀.Later w) (hq : w.Quieted b w₀.allEnded)
    (hn : n ≤ w₀.history.activations.length) (transport : Transport) (options : SessionOptions)
    (notifier : Notifier) :
    (do
      let session ← buildSession transport options
      let controller ← newController notifier
      hold i (some controller)
      let _ ← Controller.start controller session context
      pure controller : Procedure Nat).Ensures (World.Sound none none) World.Meanwhile w
        fun r w' => (w'.happen (.ended (r.map .activated))).Sound none none := by
  have hfail : ∀ {w' : World} (f : Fault), w'.Sound none none → w.Meanwhile w' →
      (w'.happen (.ended (.error f))).Sound none none :=
    fun f hs hm => hs.fail (hw.later hm.later) f
  unfold buildSession
  simp only [ensures_bind, ensures_ofExcept]
  cases transportNames transport with
  | error f => exact hfail f h (.refl w)
  | ok names =>
    simp only [onOk, ensures_bind, ensures_remark, newSession]
    have hremark := World.Alike.happen (e := .remarked (.buildingSession names.1 names.2)) w rfl
    have hquiet : (do
        let slug ← openChannel options.channelName
        let _ ← request (.makeClient slug)
        pure slug : Procedure String).Quiet :=
      (confined_openChannel _).bind fun _ => (confined_request rfl).bind fun _ => confined_pure _
    have hsteady := hquiet.steady _ ⟨h.alike hremark, hremark.meanwhile⟩
    simp only [ensures_bind] at hsteady
    refine hsteady.mono fun r w₁ hw₁ => ?_
    cases r with
    | error f => exact hfail f hw₁.1 hw₁.2
    | ok slug =>
      refine Ensures.mono hw₁ fun r w₂ hw₂ => ?_
      cases r with
      | error f => exact hfail f hw₂.1 hw₂.2
      | ok _ =>
        obtain ⟨hs, hm⟩ := hw₂
        simp only [onOk, ensures_bind, ensures_ask, ensures_change, ensures_happen, ensures_pure,
          newController, hold]
        have hover : ∀ m ∈ w₀.allEnded, m < w.history.activations.length := fun m hm =>
          Nat.lt_of_lt_of_le (History.mem_ended.mp hm).1 hl.history.length_le
        refine (ensures_start_launched_sound (x := ⟨names.1, transport, options, slug, none, false,
          false, false, 0⟩) hs (hw.later hm.later) hb hc
          (Nat.lt_of_lt_of_le hi hm.evolves.bootstraps)
          (Nat.lt_of_lt_of_le hctx hm.evolves.contexts) (hl.trans hm.later)
          (hq.meanwhile h hover hm) hn ⟨rfl, rfl, rfl⟩ notifier).mono fun r w' hw' => ?_
        cases r with
        | error f => exact hw'
        | ok b => exact hw'

theorem ensures_activate_sound (h : w.Sound none none) (hw : w.Working n b c none)
    (hb : b = i + 1) (hc : c = context + 1) (hctx : context < w.contexts.length) :
    (activate i context).Ensures (World.Sound none none) World.Meanwhile w fun r w' =>
      (w'.happen (.ended (r.map .activated))).Sound none none := by
  have hfail : ∀ {w' : World} (f : Fault), w'.Sound none none → w.Later w' →
      (w'.happen (.ended (.error f))).Sound none none :=
    fun f hs hl => hs.fail (hw.later hl) f
  have hrefl : w.Later w := (World.Meanwhile.refl w).later
  unfold activate
  simp only [ensures_bind, find, Context.find, ensures_find, onOk]
  refine ⟨fun x hx => ⟨fun y hy => ?_, fun _ => hfail _ h hrefl⟩, fun _ => hfail _ h hrefl⟩
  split
  · exact hfail _ h hrefl
  · rename_i path _
    simp only [ensures_bind, ensures_remark, onOk]
    have hremark := World.Alike.happen (e := .remarked (.extensionPath y.path)) w rfl
    refine ((quiet_prepare x.config y path).steady _
      ⟨h.alike hremark, hremark.meanwhile⟩).mono fun r w₁ hw₁ => ?_
    obtain ⟨hs₁, hm₁⟩ := hw₁
    cases r with
    | error f => exact hfail f hs₁ hm₁.later
    | ok transport =>
      refine (ensures_replacePrevious_sound (b := i) hs₁).mono fun r w₂ hw₂ => ?_
      obtain ⟨hs₂, hl₂, hq₂⟩ := hw₂
      have hl := hm₁.later.trans hl₂
      cases r with
      | error f => exact hfail f hs₂ hl
      | ok _ =>
        obtain ⟨a, ha, _⟩ := (hw.later hm₁.later).activation
        have hn := (List.getElem?_eq_some_iff.mp ha).1
        have hlaunch := ensures_launch_sound hs₂ (hw.later hl) hb hc
          (Nat.lt_of_lt_of_le (List.getElem?_eq_some_iff.mp hx).1 hl.bootstraps)
          (Nat.lt_of_lt_of_le hctx hl.contexts) hl₂ (hb ▸ hq₂ () rfl) (Nat.le_of_lt hn)
          transport x.config.options y.notifier
        simp only [ensures_bind] at hlaunch
        exact hlaunch

end Bootstrap

end EditorClient

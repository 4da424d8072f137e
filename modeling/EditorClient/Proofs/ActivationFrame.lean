import EditorClient.Proofs.TameScript
import EditorClient.Report

/-! What an activation or a deactivation leaves alone when nothing else happens meanwhile. Whatever
comes of their calls, they change the one bootstrap, what its controller holds and what they make
themselves, and an activation adds at most one subscription to its context. -/

namespace EditorClient

open Procedure

/-- The objects that may change, and how many controllers and sessions may be made. -/
structure Footprint where
  bootstrap : Nat
  controllers : Nat → Prop
  sessions : Nat → Prop
  context : Option Nat
  made : Nat

namespace Footprint

def ofDeactivation (w : World) (b : Nat) : Footprint where
  bootstrap := b
  controllers := fun k => w.current b = some k
  sessions := fun j => ∃ k, w.current b = some k ∧ w.Holds k j
  context := none
  made := 0

def ofActivation (w : World) (b : Nat) (context : Option Nat) : Footprint where
  bootstrap := b
  controllers := fun k => w.current b = some k ∨ k = w.controllers.length
  sessions := fun j => (∃ k, w.current b = some k ∧ w.Holds k j) ∨ j = w.sessions.length
  context := context
  made := 1

end Footprint

theorem getElem?_concat_of_ne {α : Type} {l : List α} {i : Nat} (x : α) (h : i ≠ l.length) :
    (l ++ [x])[i]? = l[i]? := by
  by_cases hlt : i < l.length
  · exact List.getElem?_append_left hlt
  · have hle : l.length ≤ i := by omega
    rw [List.getElem?_eq_none hle, List.getElem?_eq_none]
    rw [List.length_append, List.length_singleton]
    omega

namespace World

/-- Nothing outside the footprint has changed. The context may have one subscription more, and the
disposable of that subscription is new. -/
structure ChangesOnly (F : Footprint) (w w' : World) : Prop where
  bootstraps : ∀ b, b ≠ F.bootstrap → w'.bootstraps[b]? = w.bootstraps[b]?
  controllers : ∀ k, ¬F.controllers k → w'.controllers[k]? = w.controllers[k]?
  sessions : ∀ j, ¬F.sessions j → w'.sessions[j]? = w.sessions[j]?
  contexts : ∀ c, w'.contexts[c]? = w.contexts[c]? ∨ F.context = some c ∧
    ∃ d, w'.contexts[c]? = (w.contexts[c]?).map fun x =>
      { x with subscriptions := x.subscriptions ++ [d] }
  disposables : w.disposables <+: w'.disposables
  disposed : ∀ d, w'.isDisposed d = w.isDisposed d
  controllers_made : w.controllers.length ≤ w'.controllers.length ∧
    w'.controllers.length ≤ w.controllers.length + F.made
  sessions_made : w.sessions.length ≤ w'.sessions.length ∧
    w'.sessions.length ≤ w.sessions.length + F.made

namespace ChangesOnly

variable {F G : Footprint} {w₀ w w' : World}

theorem refl (F : Footprint) (w : World) : w.ChangesOnly F w where
  bootstraps := fun _ _ => rfl
  controllers := fun _ _ => rfl
  sessions := fun _ _ => rfl
  contexts := fun _ => .inl rfl
  disposables := List.prefix_rfl
  disposed := fun _ => rfl
  controllers_made := ⟨Nat.le_refl _, Nat.le_add_right ..⟩
  sessions_made := ⟨Nat.le_refl _, Nat.le_add_right ..⟩

theorem alike (h : w₀.ChangesOnly F w) (ha : w.Alike w') : w₀.ChangesOnly F w' where
  bootstraps := ha.bootstraps ▸ h.bootstraps
  controllers := ha.controllers ▸ h.controllers
  sessions := ha.sessions ▸ h.sessions
  contexts := ha.contexts ▸ h.contexts
  disposables := ha.disposables ▸ h.disposables
  disposed := by
    intro d
    rw [isDisposed, ha.disposables]
    exact h.disposed d
  controllers_made := ha.controllers ▸ h.controllers_made
  sessions_made := ha.sessions ▸ h.sessions_made

theorem happen (h : w₀.ChangesOnly F w) (e : Event) : w₀.ChangesOnly F (w.happen e) :=
  ⟨h.bootstraps, h.controllers, h.sessions, h.contexts, h.disposables, h.disposed,
    h.controllers_made, h.sessions_made⟩

theorem modifySession (h : w₀.ChangesOnly F w) {j : Nat} (hj : F.sessions j)
    (f : Session → Session) : w₀.ChangesOnly F (w.modifySession j f) := by
  refine ⟨h.bootstraps, h.controllers, fun i hi => ?_, h.contexts, h.disposables, h.disposed,
    h.controllers_made, ?_⟩
  · have hne : j ≠ i := fun he => hi (he ▸ hj)
    exact (List.getElem?_modify_ne f _ hne).trans (h.sessions i hi)
  · simpa [World.modifySession] using h.sessions_made

theorem modifyController (h : w₀.ChangesOnly F w) {k : Nat} (hk : F.controllers k)
    (f : Controller → Controller) : w₀.ChangesOnly F (w.modifyController k f) := by
  refine ⟨h.bootstraps, fun i hi => ?_, h.sessions, h.contexts, h.disposables, h.disposed, ?_,
    h.sessions_made⟩
  · have hne : k ≠ i := fun he => hi (he ▸ hk)
    exact (List.getElem?_modify_ne f _ hne).trans (h.controllers i hi)
  · simpa [World.modifyController] using h.controllers_made

theorem modifyBootstrap (h : w₀.ChangesOnly F w) (f : Bootstrap → Bootstrap) :
    w₀.ChangesOnly F (w.modifyBootstrap F.bootstrap f) := by
  refine ⟨fun b hb => ?_, h.controllers, h.sessions, h.contexts, h.disposables, h.disposed,
    h.controllers_made, h.sessions_made⟩
  exact (List.getElem?_modify_ne f _ hb.symm).trans (h.bootstraps b hb)

theorem hold (h : w₀.ChangesOnly F w) (controller : Option Nat) :
    w₀.ChangesOnly F (w.hold F.bootstrap controller) := (h.modifyBootstrap _).happen _

theorem addSession (h : w₀.ChangesOnly F w) (hlength : w.sessions.length = w₀.sessions.length)
    (hnew : F.sessions w₀.sessions.length) (hmade : F.made = 1) (x : Session) :
    w₀.ChangesOnly F (addSession x w) := by
  refine ⟨h.bootstraps, h.controllers, fun j hj => ?_, h.contexts, h.disposables, h.disposed,
    h.controllers_made, ?_⟩
  · have hne : j ≠ w.sessions.length := fun he => hj (he ▸ hlength ▸ hnew)
    exact (getElem?_concat_of_ne x hne).trans (h.sessions j hj)
  · simp [EditorClient.addSession, hlength, hmade]

theorem addController (h : w₀.ChangesOnly F w)
    (hlength : w.controllers.length = w₀.controllers.length)
    (hnew : F.controllers w₀.controllers.length) (hmade : F.made = 1) (x : Controller) :
    w₀.ChangesOnly F (addController x w) := by
  refine ⟨h.bootstraps, fun k hk => ?_, h.sessions, h.contexts, h.disposables, h.disposed, ?_,
    h.sessions_made⟩
  · have hne : k ≠ w.controllers.length := fun he => hk (he ▸ hlength ▸ hnew)
    exact (getElem?_concat_of_ne x hne).trans (h.controllers k hk)
  · simp [EditorClient.addController, hlength, hmade]

/-- A footprint that takes in more. Only the first may have no context. -/
theorem widen (h : w₀.ChangesOnly F w) (hbootstrap : G.bootstrap = F.bootstrap)
    (hcontrollers : ∀ k, F.controllers k → G.controllers k)
    (hsessions : ∀ j, F.sessions j → G.sessions j) (hcontext : F.context = none)
    (hmade : F.made ≤ G.made) : w₀.ChangesOnly G w where
  bootstraps := fun b hb => h.bootstraps b (hbootstrap ▸ hb)
  controllers := fun k hk => h.controllers k fun hf => hk (hcontrollers k hf)
  sessions := fun j hj => h.sessions j fun hf => hj (hsessions j hf)
  contexts := by
    intro c
    rcases h.contexts c with hc | ⟨hc, _⟩
    · exact .inl hc
    · rw [hcontext] at hc
      cases hc
  disposables := h.disposables
  disposed := h.disposed
  controllers_made := ⟨h.controllers_made.1, Nat.le_trans h.controllers_made.2 (by omega)⟩
  sessions_made := ⟨h.sessions_made.1, Nat.le_trans h.sessions_made.2 (by omega)⟩

theorem inContext (h : w₀.ChangesOnly F w) (hcontext : F.context = none) (c : Nat) :
    w₀.ChangesOnly { F with context := some c } w :=
  h.widen rfl (fun _ => id) (fun _ => id) hcontext (Nat.le_refl _)

theorem addSubscription (h : w₀.ChangesOnly F w) (hcontext : F.context = none) (action : CleanUp)
    (c : Nat) :
    w₀.ChangesOnly { F with context := some c } (addSubscription action c w) := by
  have hwide := h.inContext hcontext c
  refine ⟨h.bootstraps, h.controllers, h.sessions, fun i => ?_, ?_, fun d => ?_,
    h.controllers_made, h.sessions_made⟩
  -- So far no context has changed, which makes this subscription the only one.
  · have hsame : w.contexts[i]? = w₀.contexts[i]? := by simpa [hcontext] using h.contexts i
    rw [← hsame]
    by_cases hi : c = i
    · refine .inr ⟨congrArg some hi, w.disposables.length, ?_⟩
      rw [hi]
      exact List.getElem?_modify_eq ..
    · exact .inl (List.getElem?_modify_ne _ _ hi)
  · exact h.disposables.trans (List.prefix_append ..)
  · rw [← h.disposed d]
    change ((w.disposables ++ [⟨action, false⟩])[d]?).any _ = (w.disposables[d]?).any _
    by_cases hd : d = w.disposables.length
    · simp [hd]
    · rw [getElem?_concat_of_ne _ hd]

end ChangesOnly

end World

/-- A call comes to anything, but nothing else happens meanwhile. -/
def Passage.alone : Passage World where
  world := fun w => w
  update := fun f w => f w
  call := fun c w post => c.isAction = false ∧ ∀ r, post r (w.happen (.called c))
  mono := fun hp h => ⟨h.1, fun r => hp r _ (h.2 r)⟩

namespace Procedure

variable {α : Type} {w₀ : World} {F : Footprint}

/-- What a procedure leads to is what its run comes to, whatever the outcomes in the script. -/
theorem Leads.alone {p : Procedure α} {post : Except Fault α → World → Prop}
    (take : Step → Setting → Setting) {s : Setting} (hs : ∀ queue, s.script.IsFlat queue)
    (hp : p.Leads .alone s.world post) :
    post (p.run (Call.respond take) s).1 (p.run (Call.respond take) s).2.world := by
  induction p generalizing s with
  | done a => exact hp
  | fail f => exact hp
  | read next ih => exact ih s.world hs hp
  | update f next ih => exact ih (s := { s with world := f s.world }) hs hp
  | call c next ih =>
    obtain ⟨hc, hnext⟩ := hp
    -- In a flat script the reaction to a call takes no steps of its own.
    obtain ⟨queue, _, hreact⟩ := Call.exists_queue hc
    have hafter := Call.respond_of_flat take (hreact s.script) (hs queue)
    apply ih (c.respond take s).1
    · rw [hafter]
      exact fun other => (hs other).rest queue
    · rw [hafter]
      exact hnext _

theorem maintains_request_alone {P : World → Prop} {c : Call} (hc : c.isAction = false)
    (hP : ∀ w, P w → P (w.happen (.called c))) : (request c).Maintains .alone P :=
  fun w hw => (leads_request _ _).mpr ⟨hc, fun _ => hP w hw⟩

/-- Where no object changes, all is kept that depends on the objects only. -/
theorem Confined.alone {P : World → Prop} {p : Procedure α} (hp : p.Confined Call.isUsual)
    (hP : ∀ w w', World.Alike w w' → P w → P w') : p.Maintains .alone P := by
  refine hp.maintains (fun w f hf hw => hP _ _ hf hw) fun c hc => ?_
  rw [Call.isUsual, Bool.and_eq_true, Bool.not_eq_true'] at hc
  exact maintains_request_alone hc.2 fun w hw => hP w _ (.happen w hc.1) hw

abbrev Framed (w₀ : World) (F : Footprint) (p : Procedure α) : Prop :=
  p.Maintains .alone (w₀.ChangesOnly F)

theorem Confined.framed {p : Procedure α} (hp : p.Confined Call.isUsual) : p.Framed w₀ F :=
  hp.alone fun _ _ ha h => h.alike ha

theorem framed_compositional (w₀ : World) (F : Footprint) : Compositional fun p => p.Framed w₀ F :=
  maintains_compositional _ _

end Procedure

variable {w₀ w : World} {F : Footprint} {b j k : Nat}

namespace Session

theorem framed_modify (hj : F.sessions j) (f : Session → Session) : (modify j f).Framed w₀ F :=
  fun _ h => h.modifySession hj f

theorem framed_served (hj : F.sessions j) : Served (fun p => p.Framed w₀ F) j where
  toCompositional := framed_compositional w₀ F
  silent := fun hp => (hp.mono nofun).framed
  call := fun _ => maintains_request_alone rfl fun _ h => h.happen _
  closeWriter := compositional_closeWriter (framed_compositional w₀ F)
    (fun hp => (hp.mono nofun).framed) (fun _ => maintains_request_alone rfl fun _ h => h.happen _)
    (framed_modify hj _)

theorem framed_start (hj : F.sessions j) : (start j).Framed w₀ F := by
  have hc := framed_compositional w₀ F
  have hsetWriter : ∀ n, (Procedure.request (.setWriter j n)).Framed w₀ F := fun n =>
    maintains_request_alone rfl fun _ h => h.happen _
  have hreadLoop : ∀ n, (Procedure.request (.readLoop j n)).Framed w₀ F := fun n =>
    maintains_request_alone rfl fun _ h => h.happen _
  refine (framed_served hj).start (fun host port => ?_) (framed_modify hj _) (framed_modify hj _)
  exact hc.bind (confined_connect rfl).framed fun n => hc.bind (framed_modify hj _) fun _ =>
    hc.bind (hsetWriter n) fun _ => hc.bind (hreadLoop n) fun _ => framed_modify hj _

theorem framed_stop (hj : F.sessions j) : (stop j).Framed w₀ F :=
  (framed_served hj).parting.stop (framed_modify hj _)

end Session

namespace Controller

theorem framed_modify (hk : F.controllers k) (f : Controller → Controller) :
    (modify k f).Framed w₀ F := fun _ h => h.modifyController hk f

theorem framed_callSession {p : Procedure Unit} (hp : p.Framed w₀ F) (k : Nat) (c : SessionCall) :
    (do
      change (·.callSession k c)
      p : Procedure Unit).Framed w₀ F :=
  (framed_compositional w₀ F).bind (fun _ h => ⟨h.bootstraps, h.controllers, h.sessions, h.contexts,
    h.disposables, h.disposed, h.controllers_made, h.sessions_made⟩) fun _ => hp

theorem framed_startFailed (hk : F.controllers k) (hj : F.sessions j) (name : Value)
    (fault : Fault) : (startFailed k j name fault).Framed w₀ F := by
  have hc := framed_compositional w₀ F
  refine hc.bind (framed_modify hk _) fun _ => hc.bind (confined_remark _).framed fun _ =>
    hc.bind (maintains_find _ _ _) fun c => hc.bind ?_ fun _ =>
    hc.recoverOrdinary (framed_callSession (Session.framed_stop hj) k _) fun _ =>
      (confined_remark _).framed
  unfold notifyFailure
  split
  · exact (confined_pure ()).framed
  · exact (confined_notify (fun _ => rfl) _ _).framed

/-- Until the controller is registered, its context is as it was. -/
theorem leads_start_framed (hk : F.controllers k) (hj : F.sessions j) (hcontext : F.context = none)
    (h : w₀.ChangesOnly F w) (context : Nat) : (start k j context).Leads .alone w
      fun _ w' => w₀.ChangesOnly { F with context := some context } w' := by
  have hc := framed_compositional w₀ F
  have hwide : ∀ (f : Fault) (v : World), w₀.ChangesOnly F v →
      w₀.ChangesOnly { F with context := some context } v := fun _ _ hv => hv.inContext hcontext _
  refine Maintains.leads_bind (maintains_find _ _ _) hwide (fun c v hv => ?_) h
  dsimp only
  split
  · exact hv.inContext hcontext _
  refine Maintains.leads_bind (framed_modify hk _) hwide (fun _ v hv => ?_) hv
  refine Maintains.leads_bind (maintains_find _ _ _) hwide (fun x v hv => ?_) hv
  refine Maintains.leads_bind (confined_remark _).framed hwide (fun _ v hv => ?_) hv
  have hstarted : Framed w₀ F (recoverOrdinary
      (do
        startSession k j
        pure true)
      fun fault => do
        startFailed k j x.name fault
        pure false) :=
    hc.recoverOrdinary
      (hc.bind (framed_callSession (Session.framed_start hj) k _) fun _ => (confined_pure _).framed)
      fun _ => hc.bind (framed_startFailed hk hj _ _) fun _ => (confined_pure _).framed
  refine Maintains.leads_bind hstarted hwide (fun started v hv => ?_) hv
  by_cases hs : started = true
  · rw [if_pos hs]
    refine Maintains.leads_bind (framed_modify hk _) hwide (fun _ v hv => ?_) hv
    rw [leads_bind, leads_change]
    have hadded := hv.addSubscription hcontext (.stopController k) context
    have hsaid : Framed w₀ { F with context := some context } (do
        remark (.clientRunning x.name)
        pure started) := (confined_remark _).bind (fun _ => confined_pure _) |>.framed
    exact hsaid _ hadded
  · rw [if_neg hs]
    exact hv.inContext hcontext _

/-- The session that the controller holds is looked up before anything changes. -/
theorem leads_stop_framed (h : w₀.ChangesOnly F w) (hk : F.controllers k)
    (hheld : ∀ j, w.Holds k j → F.sessions j) :
    (stop k).Leads .alone w fun _ w' => w₀.ChangesOnly F w' := by
  have hc := framed_compositional w₀ F
  unfold stop
  rw [leads_bind, find, leads_find]
  refine ⟨fun c hfound => ?_, fun _ => h⟩
  have hfound' : w.controllers[k]? = some c := hfound
  dsimp only [onOk]
  split
  · rename_i session _ hsession
    have hstop : Framed w₀ F (stopSession k session) :=
      framed_callSession (Session.framed_stop (hheld session ⟨c, hfound', hsession⟩)) k _
    exact hc.bind (framed_modify hk _) (fun _ => hc.bind (maintains_find _ _ _) fun _ =>
      hc.bind (confined_remark _).framed fun _ => hstop) w h
  · exact (confined_remark _).framed w h

end Controller

theorem leads_buildSession_framed (h : w₀.ChangesOnly (.ofDeactivation w₀ b) w)
    (transport : Transport) (options : SessionOptions) :
    (buildSession transport options).Leads .alone w fun r w' =>
      w₀.ChangesOnly (.ofActivation w₀ b none) w' ∧
        w'.controllers.length = w₀.controllers.length ∧ ∀ j, r = .ok j → j = w₀.sessions.length := by
  have hwide : ∀ v, w₀.ChangesOnly (.ofDeactivation w₀ b) v →
      w₀.ChangesOnly (.ofActivation w₀ b none) v := fun v hv =>
    hv.widen rfl (fun _ => .inl) (fun _ => .inl) rfl (Nat.zero_le _)
  have hlength : ∀ v, w₀.ChangesOnly (.ofDeactivation w₀ b) v →
      v.controllers.length = w₀.controllers.length ∧ v.sessions.length = w₀.sessions.length := by
    intro v hv
    exact ⟨Nat.le_antisymm hv.controllers_made.2 hv.controllers_made.1,
      Nat.le_antisymm hv.sessions_made.2 hv.sessions_made.1⟩
  have hfault : ∀ (f : Fault) v, w₀.ChangesOnly (.ofDeactivation w₀ b) v →
      w₀.ChangesOnly (.ofActivation w₀ b none) v ∧
        v.controllers.length = w₀.controllers.length ∧
          ∀ j, (Except.error f : Except Fault Nat) = .ok j → j = w₀.sessions.length :=
    fun f v hv => ⟨hwide v hv, (hlength v hv).1, nofun⟩
  refine Maintains.leads_bind (confined_ofExcept _).framed hfault (fun names v hv => ?_) h
  refine Maintains.leads_bind (confined_remark _).framed hfault (fun _ v hv => ?_) hv
  refine Maintains.leads_bind (confined_openChannel _).framed hfault (fun slug v hv => ?_) hv
  refine Maintains.leads_bind (confined_request rfl).framed hfault (fun _ v hv => ?_) hv
  -- Nothing has been made before, so the session gets the first number that was free.
  obtain ⟨hcontrollers, hsessions⟩ := hlength v hv
  have hadded := (hwide v hv).addSession hsessions (.inr rfl) rfl
    ⟨names.1, transport, options, slug, none, false, false, false, 0⟩
  simp only [leads_bind, leads_ask, onOk, leads_change, leads_happen, leads_pure]
  exact ⟨hadded.happen _, hcontrollers, fun j hj => (Except.ok.inj hj).symm.trans hsessions⟩

namespace Bootstrap

theorem current_eq_of_alike (ha : w₀.Alike w) {x : Bootstrap} (hx : w.bootstraps[b]? = some x) :
    w₀.current b = x.controller := by
  rw [World.current, ← ha.bootstraps, hx]
  rfl

theorem leads_deactivate_framed (ha : w₀.Alike w) (b : Nat) : (deactivate b).Leads .alone w
    fun _ w' => w₀.ChangesOnly (.ofDeactivation w₀ b) w' := by
  have hsame : w₀.ChangesOnly (.ofDeactivation w₀ b) w := (World.ChangesOnly.refl _ _).alike ha
  unfold deactivate
  rw [leads_bind, find, leads_find]
  refine ⟨fun x hx => ?_, fun _ => hsame⟩
  have hcurrent := current_eq_of_alike ha hx
  dsimp only [onOk]
  split
  · exact hsame
  · rename_i k hcontroller
    have hk : w₀.current b = some k := hcurrent.trans hcontroller
    rw [leads_bind, hold, leads_change]
    refine Controller.leads_stop_framed (hsame.hold none) hk fun j hj => ⟨k, hk, ?_⟩
    obtain ⟨c, hc, hj⟩ := hj
    exact ⟨c, ha.controllers ▸ hc, hj⟩

theorem leads_replacePrevious_framed (ha : w₀.Alike w) (b : Nat) :
    (replacePrevious b).Leads .alone w
      fun _ w' => w₀.ChangesOnly (.ofDeactivation w₀ b) w' := by
  have hsame : w₀.ChangesOnly (.ofDeactivation w₀ b) w := (World.ChangesOnly.refl _ _).alike ha
  unfold replacePrevious
  rw [leads_bind, find, leads_find]
  refine ⟨fun x _ => ?_, fun _ => hsame⟩
  dsimp only [onOk]
  split
  · rw [leads_bind, leads_remark]
    exact leads_deactivate_framed (ha.trans (.happen w rfl)) b
  · exact hsame

theorem leads_activate_framed (w : World) (b context : Nat) : (activate b context).Leads .alone w
    fun _ w' => w.ChangesOnly (.ofActivation w b (some context)) w' := by
  have hwide : ∀ v, w.ChangesOnly (.ofDeactivation w b) v →
      w.ChangesOnly (.ofActivation w b (some context)) v := fun v hv =>
    hv.widen rfl (fun _ => .inl) (fun _ => .inl) rfl (Nat.zero_le _)
  have hpreparing : Preparing fun p => p.Confined Call.isUsual :=
    confined_preparing (fun _ => rfl) fun _ => rfl
  have hprepared : (preparation b context).Maintains .alone w.Alike :=
    (hpreparing.preparation b context).alone fun _ _ h ha => ha.trans h
  rw [activate_eq]
  refine hprepared.leads_bind (fun f v hv => ?_) (fun prepared v hv => ?_) (.refl w)
  · exact hwide v ((World.ChangesOnly.refl _ _).alike hv)
  unfold succession
  rw [leads_bind]
  refine (leads_replacePrevious_framed hv b).mono fun r v₁ hv₁ => ?_
  cases r with
  | error f => exact hwide v₁ hv₁
  | ok u =>
    dsimp only [onOk]
    rw [leads_bind]
    refine (leads_buildSession_framed hv₁ _ _).mono fun r v₂ ⟨hv₂, hlength, hindex⟩ => ?_
    cases r with
    | error f => exact hv₂.inContext rfl context
    | ok session =>
      have hsession := hindex session rfl
      have hmade := hv₂.addController hlength (.inr rfl) rfl ⟨prepared.2.1.notifier, none, .unstarted⟩
      have hk : (Footprint.ofActivation w b none).controllers v₂.controllers.length := .inr hlength
      have hj : (Footprint.ofActivation w b none).sessions session := .inr hsession
      simp only [onOk, leads_bind, newController, leads_ask, leads_change, leads_pure, hold]
      refine (Controller.leads_start_framed hk hj rfl (hmade.hold _) context).mono
        fun r v₃ hv₃ => ?_
      cases r with
      | ok started => exact hv₃
      | error f => exact hv₃

/-- Both return or raise as their calls turn out. -/
theorem run_framed (take : Step → Setting → Setting) {s : Setting}
    (hs : ∀ queue, s.script.IsFlat queue) (b context : Nat) :
    s.world.ChangesOnly (.ofActivation s.world b (some context))
        ((activate b context).run (Call.respond take) s).2.world ∧
      s.world.ChangesOnly (.ofDeactivation s.world b)
        ((deactivate b).run (Call.respond take) s).2.world := by
  have hactivate := leads_activate_framed s.world b context
  have hdeactivate := leads_deactivate_framed (.refl s.world) b
  exact ⟨hactivate.alone take hs, hdeactivate.alone take hs⟩

/-- Two bootstraps with a session each. The next handshake is cancelled. -/
def sharedSetting : Setting where
  world := (Step.leaveAll 9 9
    [.newContext (.path ⟨.none, []⟩) (.member (.text "development")) .null .host,
      .newContext (.path ⟨.none, []⟩) (.member (.text "development")) .null .host,
      .newBootstrap none, .newBootstrap none, .activate 1 1, .activate 2 2] (.unlogged .empty)).world
  script := .once .finishHandshake [] (some (.raised .cancelled ""))

theorem run_framed_of_handshake_cancelled :
    let r := (activate 0 1).run (Call.respond (Step.leave 9 9)) sharedSetting
    let r' := (deactivate 0).run (Call.respond (Step.leave 9 9)) sharedSetting
    (∀ queue, sharedSetting.script.IsFlat queue) ∧ r.1 = .error (.raised .cancelled "") ∧
      r.2.world.controllers.map (·.state) = [.stopped, .running, .starting] ∧
      sharedSetting.world.ChangesOnly (.ofActivation sharedSetting.world 0 (some 1)) r.2.world ∧
      sharedSetting.world.ChangesOnly (.ofDeactivation sharedSetting.world 0) r'.2.world := by
  have hflat : ∀ queue, sharedSetting.script.IsFlat queue := by
    intro queue r hr
    change r ∈ Script.once _ _ _ queue at hr
    unfold Script.once at hr
    split at hr
    · rw [List.mem_singleton.mp hr]
      rfl
    · cases hr
  exact ⟨hflat, by rfl, by decide +kernel, run_framed _ hflat 0 1⟩

end Bootstrap

end EditorClient

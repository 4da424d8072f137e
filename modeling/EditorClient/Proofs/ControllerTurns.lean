import EditorClient.Proofs.OwnerSteps
import EditorClient.Proofs.Trail

/-! The life of a controller: how each world of a run comes of the one before, as far as one controller
and the disposables that stop it are concerned. -/

namespace EditorClient

open Procedure

def CleanUp.stops (k : Nat) : CleanUp → Bool
  | .scripted .. => false
  | .stopController i => i == k

/-- A controller, if it has been made, how many disposables there are to stop it, and what it has called
on sessions. -/
@[ext]
structure Station where
  controller : Option Controller
  stoppers : Nat
  calls : List SessionCall

def World.station (w : World) (k : Nat) : Station :=
  ⟨w.controllers[k]?, w.disposables.countP fun d => d.action.stops k, w.callsBy k⟩

/-- How a controller may stand between its own acts. A session that it holds is the one that it has
started. -/
inductive Station.Regular : Station → Prop where
  | absent : Regular ⟨none, 0, []⟩
  | unstarted (n : Notifier) : Regular ⟨some ⟨n, none, .unstarted⟩, 0, []⟩
  | begun (n : Notifier) : Regular ⟨some ⟨n, none, .starting⟩, 0, []⟩
  | starting (n : Notifier) (j : Nat) : Regular ⟨some ⟨n, none, .starting⟩, 0, [.start j]⟩
  | failed (n : Notifier) (j : Nat) : Regular ⟨some ⟨n, none, .failed⟩, 0, [.start j]⟩
  | released (n : Notifier) (j : Nat) : Regular ⟨some ⟨n, none, .failed⟩, 0, [.start j, .stop j]⟩
  | running (n : Notifier) (j : Nat) : Regular ⟨some ⟨n, some j, .running⟩, 1, [.start j]⟩
  | stopping (n : Notifier) (j : Nat) : Regular ⟨some ⟨n, none, .stopped⟩, 1, [.start j]⟩
  | stopped (n : Notifier) (j : Nat) : Regular ⟨some ⟨n, none, .stopped⟩, 1, [.start j, .stop j]⟩

def World.Regular (w : World) : Prop := ∀ k, (w.station k).Regular

/-- All that can become of a controller from one world to the next. When it has begun to run it cannot
stay so without being registered. -/
inductive Station.Moves : Station → Station → Prop where
  | stays {s : Station} (h : s.Regular) : Moves s s
  | made (n : Notifier) : Moves ⟨none, 0, []⟩ ⟨some ⟨n, none, .unstarted⟩, 0, []⟩
  | begins (n : Notifier) :
    Moves ⟨some ⟨n, none, .unstarted⟩, 0, []⟩ ⟨some ⟨n, none, .starting⟩, 0, []⟩
  | starts (n : Notifier) (j : Nat) :
    Moves ⟨some ⟨n, none, .starting⟩, 0, []⟩ ⟨some ⟨n, none, .starting⟩, 0, [.start j]⟩
  | fails (n : Notifier) (j : Nat) :
    Moves ⟨some ⟨n, none, .starting⟩, 0, [.start j]⟩ ⟨some ⟨n, none, .failed⟩, 0, [.start j]⟩
  | releases (n : Notifier) (j : Nat) :
    Moves ⟨some ⟨n, none, .failed⟩, 0, [.start j]⟩ ⟨some ⟨n, none, .failed⟩, 0, [.start j, .stop j]⟩
  | runs (n : Notifier) (j : Nat) :
    Moves ⟨some ⟨n, none, .starting⟩, 0, [.start j]⟩ ⟨some ⟨n, some j, .running⟩, 0, [.start j]⟩
  | registers (n : Notifier) (j : Nat) :
    Moves ⟨some ⟨n, some j, .running⟩, 0, [.start j]⟩ ⟨some ⟨n, some j, .running⟩, 1, [.start j]⟩
  | letsGo (n : Notifier) (j : Nat) :
    Moves ⟨some ⟨n, some j, .running⟩, 1, [.start j]⟩ ⟨some ⟨n, none, .stopped⟩, 1, [.start j]⟩
  | stops (n : Notifier) (j : Nat) :
    Moves ⟨some ⟨n, none, .stopped⟩, 1, [.start j]⟩ ⟨some ⟨n, none, .stopped⟩, 1, [.start j, .stop j]⟩

theorem Station.Regular.stoppers_eq_zero {s : Station} (h : s.Regular) {c : Controller}
    (hc : s.controller = some c) (hstate : c.state = .starting ∨ c.state = .failed) :
    s.stoppers = 0 := by
  cases h with
  | running | stopping | stopped =>
    cases hc
    rcases hstate with hstate | hstate <;> cases hstate
  | _ => rfl

/-- How one world comes of another for a controller. A disposable that stops it is made only to be
registered with a context. -/
structure Controller.Turn (k : Nat) (w w' : World) : Prop where
  moves : (w.station k).Moves (w'.station k)
  registered : (w'.station k).stoppers ≠ (w.station k).stoppers →
    ∃ context, w' = addSubscription (.stopController k) context w

theorem Controller.Turn.ofMove {k : Nat} {w w' : World} {s s' : Station} (hs : w.station k = s)
    (hs' : w'.station k = s') (h : s.Moves s') (hsame : s'.stoppers = s.stoppers) :
    Controller.Turn k w w' :=
  ⟨by rwa [hs, hs'], fun hne => absurd (by rw [hs, hs', hsame]) hne⟩

theorem Controller.Turn.stays {k : Nat} {w w' : World} (h : (w.station k).Regular)
    (h' : w'.station k = w.station k) : Controller.Turn k w w' := ofMove rfl h' (.stays h) rfl

namespace World

def Turns (w w' : World) : Prop := ∀ k, Controller.Turn k w w'

variable {w w' : World} {k : Nat}

theorem station_eq (hc : w'.controllers = w.controllers) (hs : w'.sessionCalls = w.sessionCalls)
    (hd : w'.disposables = w.disposables) (k : Nat) : w'.station k = w.station k := by
  rw [station, station, callsBy, callsBy, hc, hs, hd]

theorem station_mark (w : World) (d k : Nat) :
    (w.modifyDisposable d fun x => { x with disposed := true }).station k = w.station k := by
  have hactions : ∀ (l : List Disposable) (i : Nat),
      (l.modify i fun x => { x with disposed := true }).countP (fun x => x.action.stops k) =
        l.countP fun x => x.action.stops k := by
    intro l
    induction l with
    | nil => intro i; cases i <;> rfl
    | cons x l ih =>
      intro i
      cases i with
      | zero => simp [List.countP_cons]
      | succ i => simp [List.countP_cons, ih]
  simp only [station, modifyDisposable, hactions, callsBy]

theorem station_addDisposable (a : CleanUp) (w : World) (k : Nat) :
    (addDisposable a w).station k =
      ⟨(w.station k).controller, (w.station k).stoppers + if a.stops k then 1 else 0,
        (w.station k).calls⟩ := by
  simp [station, addDisposable, callsBy, List.countP_append, List.countP_cons]

theorem station_modifyController (w : World) (i : Nat) (f : Controller → Controller) (k : Nat) :
    (w.modifyController i f).station k =
      ⟨if i = k then (w.station k).controller.map f else (w.station k).controller,
        (w.station k).stoppers, (w.station k).calls⟩ := by
  rw [station, modifyController, List.getElem?_modify]
  split
  · rfl
  · rw [station]
    simp [callsBy]

theorem station_callSession (w : World) (i : Nat) (c : SessionCall) (k : Nat) :
    (w.callSession i c).station k = ⟨(w.station k).controller, (w.station k).stoppers,
      if i = k then (w.station k).calls ++ [c] else (w.station k).calls⟩ := by
  rw [station, callsBy_callSession]
  rfl

theorem Regular.unstarted (h : w.Regular) {c : Controller} (hc : w.controllers[k]? = some c)
    (hstate : c.state = .unstarted) : ∃ n, w.station k = ⟨some ⟨n, none, .unstarted⟩, 0, []⟩ := by
  have hk := h k
  have hs : (w.station k).controller = some c := hc
  generalize w.station k = s at hk hs ⊢
  cases hk with
  | absent => cases hs
  | unstarted n => exact ⟨n, rfl⟩
  | _ =>
    cases hs
    cases hstate

theorem Regular.running (h : w.Regular) {c : Controller} (hc : w.controllers[k]? = some c)
    (hstate : c.state = .running) {j : Nat} (hj : c.session = some j) :
    ∃ n, w.station k = ⟨some ⟨n, some j, .running⟩, 1, [.start j]⟩ := by
  have hk := h k
  have hs : (w.station k).controller = some c := hc
  generalize w.station k = s at hk hs ⊢
  cases hk with
  | absent => cases hs
  | running n i =>
    cases hs
    cases hj
    exact ⟨n, rfl⟩
  | _ =>
    cases hs
    cases hstate

end World

namespace Trail

/-- Every world so far is the turn of the one before, and a call may be made now. -/
structure Regular (t : Trail) : Prop where
  goes : t.Goes World.Turns
  world : t.world.Regular

/-- The controller stands like this now. -/
structure Keeping (k : Nat) (s : Station) (t : Trail) : Prop extends Regular t where
  station : t.world.station k = s

variable {t : Trail}

theorem Regular.stays (h : t.Regular) {f : World → World}
    (hf : ∀ k, (f t.world).station k = t.world.station k) : (t.go f).Regular where
  goes := h.goes.go fun k => .stays (h.world k) (hf k)
  world := by
    intro k
    rw [world_go, hf]
    exact h.world k

theorem Regular.turn (h : t.Regular) {f : World → World} {k : Nat}
    (hf : ∀ i, i ≠ k → (f t.world).station i = t.world.station i)
    (hturn : Controller.Turn k t.world (f t.world)) (hk : ((f t.world).station k).Regular) :
    (t.go f).Regular where
  goes := h.goes.go fun i => by
    by_cases hi : i = k
    · exact hi ▸ hturn
    · exact .stays (h.world i) (hf i hi)
  world := by
    intro i
    rw [world_go]
    by_cases hi : i = k
    · exact hi ▸ hk
    · rw [hf i hi]
      exact h.world i

namespace Keeping

variable {k m : Nat} {s s' : Station} {c : Controller} {calls : List SessionCall}

theorem stays (h : t.Keeping k s) {f : World → World}
    (hf : ∀ i, (f t.world).station i = t.world.station i) : (t.go f).Keeping k s where
  toRegular := h.toRegular.stays hf
  station := by rw [world_go, hf, h.station]

theorem turn (h : t.Keeping k s) {f : World → World}
    (hf : ∀ i, i ≠ k → (f t.world).station i = t.world.station i)
    (hk : (f t.world).station k = s') (hmoves : s.Moves s') (hsame : s'.stoppers = s.stoppers)
    (hregular : s'.Regular) : (t.go f).Keeping k s' where
  toRegular := h.toRegular.turn hf (.ofMove h.station hk hmoves hsame) (hk ▸ hregular)
  station := by rw [world_go, hk]

theorem modify (h : t.Keeping k ⟨some c, m, calls⟩) (f : Controller → Controller)
    (hmoves : Station.Moves ⟨some c, m, calls⟩ ⟨some (f c), m, calls⟩)
    (hregular : Station.Regular ⟨some (f c), m, calls⟩) :
    (t.go fun w => w.modifyController k f).Keeping k ⟨some (f c), m, calls⟩ := by
  refine h.turn (fun i hi => ?_) ?_ hmoves rfl hregular
  · rw [World.station_modifyController, if_neg (Ne.symm hi)]
  · rw [World.station_modifyController, if_pos rfl, h.station]
    rfl

theorem callSession (h : t.Keeping k ⟨some c, m, calls⟩) (call : SessionCall)
    (hmoves : Station.Moves ⟨some c, m, calls⟩ ⟨some c, m, calls ++ [call]⟩)
    (hregular : Station.Regular ⟨some c, m, calls ++ [call]⟩) :
    (t.go (·.callSession k call)).Keeping k ⟨some c, m, calls ++ [call]⟩ := by
  refine h.turn (fun i hi => ?_) ?_ hmoves rfl hregular
  · rw [World.station_callSession, if_neg (Ne.symm hi)]
  · rw [World.station_callSession, if_pos rfl, h.station]

end Keeping

theorem regular_start (directory : String) (log : LogDirectory) :
    Regular ⟨.initial directory log, []⟩ :=
  ⟨List.isChain_singleton _, fun _ => .absent⟩

end Trail

/-- What goes on being true of trails while nothing is done to a controller on purpose. -/
structure Lasting (P : Trail → Prop) : Prop where
  regular : ∀ {t}, P t → t.Regular
  stays : ∀ {t} {f : World → World}, (f t.world).controllers = t.world.controllers →
    (f t.world).sessionCalls = t.world.sessionCalls →
      (f t.world).disposables = t.world.disposables → P t → P (t.go f)
  call : ∀ {t c t'}, P t → t'.Regular → (Trail.calls t c).world.Meanwhile t'.world → P t'

theorem Lasting.ownerless {P : Trail → Prop} (h : Lasting P) :
    Ownerless fun p => p.Maintains (.ofTrails Trail.Regular) P := by
  have hrequest : ∀ c, (Procedure.request c).Maintains (.ofTrails Trail.Regular) P := fun c t ht =>
    (leads_request c _).mpr ⟨(h.regular ht).stays fun _ => rfl, fun r t' ht' hm => h.call ht ht' hm⟩
  exact {
    toCompositional := maintains_compositional _ _
    quiet := fun hp => hp.maintains
      (fun t f hf ht => h.stays hf.controllers hf.sessionCalls hf.disposables ht) fun c _ => hrequest c
    request := fun c _ => hrequest c
    apart := fun f hf t ht => h.stays (hf t.world).controllers (hf t.world).sessionCalls
      (hf t.world).disposables ht }

theorem lasting_regular : Lasting Trail.Regular where
  regular := id
  stays := fun hc hs hd ht => ht.stays (World.station_eq hc hs hd)
  call := fun _ ht' _ => ht'

/-- Nobody else does anything to a controller that is starting or has failed. -/
theorem lasting_keeping {k : Nat} {c : Controller} (hstate : c.state = .starting ∨ c.state = .failed)
    (calls : List SessionCall) :
    Lasting (Trail.Keeping k ⟨some c, 0, calls⟩) where
  regular := fun ht => ht.toRegular
  stays := fun hc hs hd ht => ht.stays (World.station_eq hc hs hd)
  call := by
    intro t call t' ht ht' hm
    have hcalled := ht.stays (f := (·.happen (.called call))) fun _ => rfl
    have hstation := hcalled.station
    have hc := congrArg Station.controller hstation
    have hc' : (t'.world.station k).controller = some c := hm.evolves.controller hc
      (by rcases hstate with hs | hs <;> simp [hs]) (by rcases hstate with hs | hs <;> simp [hs])
    refine ⟨ht', Station.ext hc' ((ht'.world k).stoppers_eq_zero hc' hstate) ?_⟩
    exact (hm.evolves.calls k c hc hstate).trans (congrArg Station.calls hstation)

namespace Controller

abbrev Turning {α : Type} (p : Procedure α) : Prop := p.Maintains (.ofTrails Trail.Regular) Trail.Regular

variable {t : Trail} {k : Nat} {n : Notifier}

theorem turning_change {f : World → World} (hf : ∀ w k, (f w).station k = w.station k) :
    Turning (change f) := fun t ht => ht.stays (hf t.world)

theorem turning_new (n : Notifier) : Turning (newController n) := by
  intro t ht
  have hlength : ∀ i, i ≠ t.world.controllers.length →
      (addController ⟨n, none, .unstarted⟩ t.world).station i = t.world.station i := by
    intro i hi
    simp only [World.station, World.callsBy, addController, List.getElem?_append,
      List.getElem?_singleton]
    split
    · rfl
    · rw [if_neg (by omega), List.getElem?_eq_none (by omega)]
  have hnew := ht.world t.world.controllers.length
  have hnone : (t.world.station t.world.controllers.length).controller = none :=
    List.getElem?_eq_none (Nat.le_refl _)
  have hmade : (addController ⟨n, none, .unstarted⟩ t.world).station
      t.world.controllers.length = ⟨some ⟨n, none, .unstarted⟩,
        (t.world.station t.world.controllers.length).stoppers,
        (t.world.station t.world.controllers.length).calls⟩ := by
    simp [World.station, World.callsBy, addController]
  generalize hs : t.world.station t.world.controllers.length = x at hnew hnone hmade
  cases hnew with
  | absent => exact ht.turn hlength (.ofMove hs hmade (.made n) rfl) (by rw [hmade]; exact .unstarted n)
  | _ => cases hnone

theorem turning_stopSession {j : Nat} (ht : (t.go (·.callSession k (.stop j))).Regular) :
    (stopSession k j).Leads (.ofTrails Trail.Regular) t fun _ t' => t'.Regular := by
  rw [stopSession, leads_bind, leads_change]
  exact lasting_regular.ownerless.stopSession j _ ht

theorem turning_startFailed (j : Nat) (name : Value) (fault : Fault)
    (ht : t.Keeping k ⟨some ⟨n, none, .starting⟩, 0, [.start j]⟩) :
    (startFailed k j name fault).Leads (.ofTrails Trail.Regular) t fun _ t' => t'.Regular := by
  have hfailed := ht.modify (fun c => { c with state := .failed }) (.fails n j) (.failed n j)
  have hkept := (lasting_keeping (k := k) (c := ⟨n, none, .failed⟩) (.inr rfl) [.start j]).ownerless
  rw [startFailed, leads_bind, modify, leads_change]
  refine (hkept.remark _).leads_bind (fun _ _ h => h.toRegular) (fun _ t₁ h₁ => ?_) hfailed
  refine hkept.find.leads_bind (fun _ _ h => h.toRegular) (fun c t₂ h₂ => ?_) h₁
  refine (hkept.notifyFailure _ _).leads_bind (fun _ _ h => h.toRegular) (fun _ t₃ h₃ => ?_) h₂
  have hreleased := h₃.callSession (.stop j) (.releases n j) (.released n j)
  exact (turning_stopSession hreleased.toRegular).recoverOrdinary_maintains fun _ =>
    lasting_regular.ownerless.remark _

/-- The beginning of running is the one time when the controller's disposable is made. -/
theorem turning_running (j context : Nat) (name : Value)
    (ht : t.Keeping k ⟨some ⟨n, none, .starting⟩, 0, [.start j]⟩) :
    (do
      modify k fun c => { c with session := some j, state := .running }
      Procedure.change (addSubscription (.stopController k) context)
      Procedure.remark (.clientRunning name)
      pure true : Procedure Bool).Leads (.ofTrails Trail.Regular) t fun _ t' => t'.Regular := by
  have hrunning : ∀ i, (t.world.modifyController k fun c =>
      { c with session := some j, state := .running }).station i =
        if i = k then ⟨some ⟨n, some j, .running⟩, 0, [.start j]⟩ else t.world.station i := by
    intro i
    rw [World.station_modifyController]
    by_cases hi : i = k
    · rw [if_pos hi, if_pos hi.symm, hi, ht.station]
      rfl
    · rw [if_neg hi, if_neg (Ne.symm hi)]
  have hadded : ∀ w i, (addSubscription (.stopController k) context w).station i =
      ⟨(w.station i).controller, (w.station i).stoppers + if k == i then 1 else 0,
        (w.station i).calls⟩ := fun w i => World.station_addDisposable (.stopController k) w i
  rw [leads_bind, modify, leads_change]
  dsimp only [onOk]
  rw [leads_bind, leads_change]
  refine (lasting_regular.ownerless.bind (lasting_regular.ownerless.remark _) fun _ =>
    lasting_regular.ownerless.pure true) _ ⟨(ht.goes.go fun i => ?_).go fun i => ?_, fun i => ?_⟩
  · by_cases hi : i = k
    · subst hi
      exact .ofMove ht.station (by rw [hrunning, if_pos rfl]) (.runs n j) rfl
    · exact .stays (ht.world i) (by rw [hrunning, if_neg hi])
  · rw [Trail.world_go]
    by_cases hi : i = k
    · subst hi
      refine ⟨?_, fun _ => ⟨context, rfl⟩⟩
      rw [hadded, hrunning, if_pos rfl, if_pos (beq_self_eq_true i)]
      exact .registers n j
    · have hsame := hadded (t.world.modifyController k
        fun c => { c with session := some j, state := .running }) i
      rw [if_neg (by simpa using Ne.symm hi)] at hsame
      refine .stays ?_ hsame
      rw [hrunning, if_neg hi]
      exact ht.world i
  · simp only [Passage.update_ofTrails, Trail.world_go]
    rw [hadded, hrunning]
    by_cases hi : i = k
    · rw [if_pos hi, if_pos (by simp [hi])]
      exact .running n j
    · rw [if_neg hi, if_neg (by simpa using Ne.symm hi)]
      exact ht.world i

theorem turning_start (k j context : Nat) : Turning (start k j context) := by
  intro t ht
  rw [start, leads_bind, find, leads_find]
  refine ⟨fun c hc => ?_, fun _ => ht⟩
  dsimp only [onOk]
  split
  · exact ht
  · rename_i hunstarted
    obtain ⟨n, hstation⟩ := ht.world.unstarted hc (not_not.mp hunstarted)
    have hbegun := Trail.Keeping.modify ⟨ht, hstation⟩ (fun c => { c with state := .starting })
      (.begins n) (.begun n)
    have hkept : ∀ calls, Ownerless _ := fun calls =>
      (lasting_keeping (k := k) (c := ⟨n, none, .starting⟩) (.inl rfl) calls).ownerless
    rw [leads_bind, modify, leads_change]
    refine (hkept []).find.leads_bind (fun _ _ h => h.toRegular) (fun x t₁ h₁ => ?_) hbegun
    refine ((hkept []).remark _).leads_bind (fun _ _ h => h.toRegular) (fun _ t₂ h₂ => ?_) h₁
    have hstarting := h₂.callSession (.start j) (.starts n j) (.starting n j)
    rw [leads_bind, leads_recoverOrdinary, leads_bind, startSession, leads_bind, leads_change]
    refine ((hkept [.start j]).startSession j _ hstarting).mono fun r t₃ h₃ => ?_
    cases r with
    | ok _ => exact turning_running j context x.name h₃
    | error f =>
      refine ⟨fun _ => ?_, fun _ => h₃.toRegular⟩
      rw [leads_bind]
      refine (turning_startFailed j x.name f h₃).mono fun r t₄ h₄ => ?_
      cases r with
      | ok _ => exact h₄
      | error _ => exact h₄

theorem turning_stop (k : Nat) : Turning (stop k) := by
  intro t ht
  have hgood := lasting_regular.ownerless
  rw [stop, leads_bind, find, leads_find]
  refine ⟨fun c hc => ?_, fun _ => ht⟩
  dsimp only [onOk]
  split
  · rename_i j hrun hj
    obtain ⟨n, hstation⟩ := ht.world.running hc hrun hj
    have hstopping := Trail.Keeping.modify ⟨ht, hstation⟩
      (fun c => { c with session := none, state := .stopped }) (.letsGo n j) (.stopping n j)
    rw [leads_bind, modify, leads_change]
    dsimp only [onOk]
    rw [leads_bind, Session.find, leads_find]
    refine ⟨fun x _ => ?_, fun _ => hstopping.toRegular⟩
    rw [onOk, leads_bind, leads_remark]
    have hremarked := hstopping.stays (f := (·.remark (.stoppingClient x.name))) fun _ => rfl
    have hstopped := hremarked.callSession (.stop j) (.stops n j) (.stopped n j)
    exact turning_stopSession hstopped.toRegular
  · exact hgood.remark _ t ht

theorem turning_ownerwise : Ownerwise fun p => Turning p :=
  have hgood := lasting_regular.ownerless
  have hact := hgood.act (fun _ _ _ ht => (leads_request _ _).mpr
    ⟨ht.stays fun _ => rfl, fun _ _ ht' _ => ht'⟩) turning_stop
  have hdispose := hgood.dispose (fun d => turning_change fun w k => World.station_mark w d k) hact
  have hhold : ∀ b k, Turning (Bootstrap.hold b k) := fun _ _ => turning_change fun _ _ => rfl
  { toOwnerless := hgood
    newContext := fun _ _ => turning_change fun _ _ => rfl
    newBootstrap := fun _ => turning_change fun _ _ => rfl
    activate := hgood.activate turning_new turning_start turning_stop hhold
    deactivate := hgood.deactivate turning_stop fun b => hhold b none
    newController := turning_new
    startController := turning_start
    stopController := turning_stop
    dispose := hdispose
    disposeContext := hgood.disposeContext (fun _ => turning_change fun _ _ => rfl) hdispose
    -- What the host makes to be disposed of stops no controller.
    subscribe := hgood.subscribe
      (fun _ _ => turning_change fun w k => World.station_addDisposable _ w k)
      fun _ _ => turning_change fun _ _ => rfl }

end Controller

theorem Step.turns_contract (limit : Nat) : Trail.Contract limit Trail.Regular := by
  intro step t ht
  have hbegan : (t.go (·.happen (.began step))).Regular := ht.stays fun _ => rfl
  exact (Controller.turning_ownerwise.procedure limit step _ hbegan).mono fun answer t' ht' =>
    ht'.stays fun _ => rfl

end EditorClient

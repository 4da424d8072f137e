import EditorClient.Proofs.Ledger

/-! Every operation keeps the books of a context in order, and so does every step, however the steps
taken meanwhile put in subscriptions, take them out and dispose of them. -/

namespace EditorClient

open Procedure

namespace World

variable {w : World}

theorem subscriptions_addContext {x : Context} (hx : x.subscriptions = []) (i : Nat) :
    (addContext x w).subscriptions i = w.subscriptions i := by
  rw [subscriptions, subscriptions, addContext, List.getElem?_append]
  split
  · rfl
  · rename_i hlt
    rw [List.getElem?_eq_none (Nat.le_of_not_lt hlt), List.getElem?_singleton]
    split
    · exact hx
    · rfl

theorem listed_addContext (h : w.Listed) {x : Context} (hx : x.subscriptions = []) :
    (addContext x w).Listed := by
  intro c hc d hd
  rcases List.mem_append.mp hc with hc | hc
  · exact h c hc d hd
  · rw [List.mem_singleton.mp hc, hx] at hd
    cases hd

theorem length_addDisposable (a : CleanUp) :
    (addDisposable a w).disposables.length = w.disposables.length + 1 := by simp [addDisposable]

theorem shifts_addSubscription (w : World) (a : CleanUp) (c : Nat) :
    w.Shifts (addSubscription a c w) := by
  refine shifts_of_append [⟨a, false⟩] rfl (by simp) fun i => ?_
  rcases subscriptions_register (addDisposable a w) c i w.disposables.length with h | h
  · exact .stays h
  · exact .puts _ h

theorem listed_addSubscription (h : w.Listed) (a : CleanUp) (c : Nat) :
    (addSubscription a c w).Listed := by
  have hlength := length_addDisposable (w := w) a
  have hadded : (addDisposable a w).Listed := listed_of_eq h rfl (by omega)
  exact listed_register hadded c (by omega)

theorem length_le_register (w : World) (c i d : Nat) :
    (w.subscriptions i).length ≤ ((register c d w).subscriptions i).length := by
  rcases subscriptions_register w c i d with h | h
  · rw [h]
  · rw [h, List.length_append]
    exact Nat.le_add_right _ _

end World

namespace Trail.Booked

variable {t : Trail} {i d : Nat} {pending : Option Nat}

theorem settled (h : t.Booked i (some d)) (hd : t.world.IsDisposed d) : t.Booked i none where
  goes := h.goes
  listed := h.listed
  disposed := by
    intro e he
    rcases h.disposed e he with he | he
    · exact .inl he
    · exact .inl (Option.some.inj he ▸ hd)

theorem mark (h : t.Booked i pending) (d : Nat) : (t.go (World.mark d)).Booked i pending :=
  h.stays (World.shifts_mark _ d)
    (World.listed_of_eq h.listed rfl (by simp [World.mark, World.modifyDisposable])) (Nat.le_refl _)

/-- What has just been taken out is still to be disposed of. -/
theorem takeOut (h : t.Booked i none) {c : Nat} {x : Context} (hx : t.world.contexts[c]? = some x)
    (hd : x.subscriptions.getLast? = some d) :
    (t.go fun w => w.modifyContext c fun x =>
      { x with subscriptions := x.subscriptions.dropLast }).Booked i (some d) := by
  refine h.go (World.shifts_takeOut _ c) (World.listed_takeOut h.listed c) nofun fun e he => ?_
  rw [World.subscriptions_takeOut] at he
  split at he
  · rename_i hc
    obtain ⟨l, hl⟩ := List.getLast?_eq_some_iff.mp hd
    have hsubscriptions : t.world.subscriptions i = l ++ [d] :=
      (World.subscriptions_of_some (hc ▸ hx)).trans hl
    rw [hsubscriptions, List.dropLast_concat, List.drop_left, List.mem_singleton] at he
    exact .inr (congrArg some he.symm)
  · simp at he

theorem start (h : t.world.Listed) (hlater : t.later = []) : t.Booked i none := by
  obtain ⟨first, later⟩ := t
  obtain rfl : later = [] := hlater
  exact ⟨List.isChain_singleton _, h, by simp [worlds, Ledger.takenOut]⟩

end Trail.Booked

namespace Context

abbrev Booking {α : Type} (i : Nat) (p : Procedure α) : Prop :=
  p.Maintains (.ofTrails (Trail.Booked i none)) (Trail.Booked i none)

variable {i : Nat} {t : Trail}

theorem booking_change {f : World → World} (hshifts : ∀ w : World, w.Shifts (f w))
    (hlisted : ∀ w : World, w.Listed → (f w).Listed)
    (hlonger : ∀ w : World, (w.subscriptions i).length ≤ ((f w).subscriptions i).length) :
    Booking i (change f) := fun _ ht => ht.stays (hshifts _) (hlisted _ ht.listed) (hlonger _)

theorem booking_alike {f : World → World} (hc : ∀ w, (f w).contexts = w.contexts)
    (hd : ∀ w, (f w).disposables = w.disposables) : Booking i (change f) :=
  fun _ ht => ht.alike (hc _) (hd _)

theorem booking_request (c : Call) : Booking i (Procedure.request c) := fun _ ht =>
  (leads_request c _).mpr ⟨ht.alike rfl rfl, fun _ _ ht' _ => ht'⟩

theorem booking_ownerless (i : Nat) : Ownerless fun p => Booking i p where
  toCompositional := maintains_compositional _ _
  quiet := fun hp => hp.maintains (fun _ _ hf ht => ht.alike hf.contexts hf.disposables)
    fun c _ => booking_request c
  request := fun c _ => booking_request c
  apart := fun _ hf => booking_alike (fun w => (hf w).contexts) fun w => (hf w).disposables

theorem booking_stopController (k : Nat) : Booking i (Controller.stop k) :=
  (booking_ownerless i).stopController (fun _ _ => booking_alike (fun _ => rfl) fun _ => rfl)
    (fun _ _ => booking_alike (fun _ => rfl) fun _ => rfl) k

theorem booking_act (a : CleanUp) : Booking i (Disposable.act a) :=
  (booking_ownerless i).act (fun _ _ => booking_request _) booking_stopController a

theorem booking_mark (d : Nat) : Booking i (change (World.mark d)) := fun _ ht => ht.mark d

theorem booking_dispose (d : Nat) : Booking i (Disposable.dispose d) :=
  (booking_ownerless i).dispose booking_mark booking_act d

theorem booked_dispose {d : Nat} (ht : t.Booked i (some d)) (hd : d < t.world.disposables.length) :
    (Disposable.dispose d).Leads (.ofTrails (Trail.Booked i none)) t fun _ t' =>
      t'.Booked i none := by
  have hfind := List.getElem?_eq_getElem hd
  rw [Disposable.dispose, Disposable.find, Procedure.leads_find_bind hfind, leads_ite]
  refine ⟨fun hdisposed => ht.settled ⟨_, hfind, hdisposed⟩, fun _ => ?_⟩
  have hmarked : (t.go (World.mark d)).Booked i none :=
    (ht.mark d).settled (by rw [Trail.world_go]; exact World.isDisposed_mark hfind)
  rw [leads_bind, leads_change]
  exact booking_act _ _ hmarked

theorem booking_disposeContext (limit c : Nat) : Booking i (Context.dispose limit c) := by
  induction limit with
  | zero =>
    unfold dispose
    refine (booking_ownerless i).bind (booking_ownerless i).find fun x => ?_
    split
    · exact (booking_ownerless i).pure ()
    · exact (booking_ownerless i).quiet (confined_throw _)
  | succ limit ih =>
    intro t ht
    unfold dispose
    rw [leads_bind, find, leads_find]
    refine ⟨fun x hx => ?_, fun _ => ht⟩
    dsimp only [onOk]
    split
    · exact ht
    · rename_i d hlast
      have htaken := ht.takeOut hx hlast
      have hd : d < t.world.disposables.length :=
        ht.listed x (List.mem_of_getElem? hx) d (List.mem_of_getLast? hlast)
      rw [leads_bind, modify, leads_change]
      refine Leads.bind_maintains (Leads.recoverOrdinary_maintains
        (booked_dispose htaken (by rwa [Passage.update_ofTrails, Trail.world_go]))
          fun _ => (booking_ownerless i).remark _) fun _ => ih

theorem booking_subscribe (name : String) (reaction : Reaction) (context : Option Int) :
    Booking i (Host.subscribe (.scripted name reaction) context) := by
  intro t ht
  have hlength := World.length_addDisposable (w := t.world) (.scripted name reaction)
  have hadded : (t.go (addDisposable (.scripted name reaction))).Booked i none :=
    ht.stays (World.shifts_of_append [⟨_, false⟩] rfl (by simp) fun _ => .stays rfl)
      (World.listed_of_eq ht.listed rfl (by omega)) (Nat.le_refl _)
  have hnumbered := hadded.alike (f := Host.numberDisposable t.world.disposables.length) rfl rfl
  rw [Host.subscribe, leads_bind, leads_ask]
  dsimp only [onOk]
  rw [leads_bind, leads_change]
  dsimp only [onOk]
  rw [leads_bind, leads_change]
  cases context with
  | none => exact hnumbered
  | some number =>
    dsimp only [onOk]
    rw [leads_bind, leads_index]
    refine ⟨fun c _ _ => ?_, fun _ => hnumbered⟩
    dsimp only [onOk]
    rw [leads_bind, leads_change]
    refine hnumbered.stays (World.shifts_register _ c _) (World.listed_register hnumbered.listed c ?_)
      (World.length_le_register _ c i _)
    simp only [Trail.world_go, Passage.world_ofTrails]
    exact Nat.lt_of_lt_of_eq (Nat.lt_succ_self _) hlength.symm

theorem booking_newController (n : Notifier) : Booking i (newController n) :=
  (booking_ownerless i).newController (fun _ => booking_alike (fun _ => rfl) fun _ => rfl) n

theorem booking_startController (k j c : Nat) : Booking i (Controller.start k j c) :=
  (booking_ownerless i).startController (fun _ _ => booking_alike (fun _ => rfl) fun _ => rfl)
    (fun _ _ => booking_alike (fun _ => rfl) fun _ => rfl)
    (fun _ c => booking_change (fun w => World.shifts_addSubscription w _ c)
      (fun _ hw => World.listed_addSubscription hw _ c)
      fun _ => World.length_le_register _ c i _) k j c

theorem booking_hold (b : Nat) (k : Option Nat) : Booking i (Bootstrap.hold b k) :=
  booking_alike (fun _ => rfl) fun _ => rfl

theorem booking_ownerwise (i : Nat) : Ownerwise fun p => Booking i p where
  toOwnerless := booking_ownerless i
  newContext := fun _ hx => booking_change
    (fun _ => World.shifts_of_append [] (List.append_nil _).symm nofun fun j =>
      .stays (World.subscriptions_addContext hx j))
    (fun _ hw => World.listed_addContext hw hx)
    fun _ => Nat.le_of_eq (congrArg _ (World.subscriptions_addContext hx i).symm)
  newBootstrap := fun _ => booking_alike (fun _ => rfl) fun _ => rfl
  activate := (booking_ownerless i).activate booking_newController booking_startController
    booking_stopController booking_hold
  deactivate := (booking_ownerless i).deactivate booking_stopController fun b => booking_hold b none
  newController := booking_newController
  startController := booking_startController
  stopController := booking_stopController
  dispose := booking_dispose
  disposeContext := booking_disposeContext
  subscribe := booking_subscribe

end Context

theorem Step.books_contract (limit i : Nat) : Trail.Contract limit (Trail.Booked i none) := by
  intro step t ht
  have hbegan : (t.go (·.happen (.began step))).Booked i none := ht.alike rfl rfl
  exact ((Context.booking_ownerwise i).procedure limit step _ hbegan).mono fun answer t' ht' =>
    ht'.alike rfl rfl

/-- No run registers what has not been made. -/
theorem Step.listed_leaveAll (limit depth : Nat) (directory : String) (log : LogDirectory)
    (script : Script) (steps : List Step) :
    (leaveAll limit depth steps (.start directory log script)).world.Listed := by
  have hstart : (World.initial directory log).Listed := fun c hc => by cases hc
  obtain ⟨hbooked, hworld⟩ := Trail.Contract.ofSteps ((books_contract limit 0).leave depth) steps
    (t := ⟨.initial directory log, []⟩) (s := .start directory log script) rfl (.start hstart rfl)
  exact hworld ▸ hbooked.listed

end EditorClient

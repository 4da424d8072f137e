import EditorClient.Proofs.Ownership

/-! Changes of the world between two calls, and what of the ownership of sessions they leave in
order. -/

namespace EditorClient

namespace World

variable {but skip : Option Nat} {w w' : World}

theorem Owned.weaken (h : w.Owned none skip) (but : Option Nat) : w.Owned but skip where
  owns := by
    intro n a i hn ha hi
    have ho := h.owns n a i hn ha hi
    refine ⟨ho.session, ho.bootstrap, fun hr => (ho.running hr).imp_right ?_, ho.held⟩
    rintro ⟨k, hans, hk, hcur⟩
    exact ⟨k, hans, hk, fun _ => hcur nofun⟩
  distinct := h.distinct
  made := h.made
  held := h.held

theorem Registry.weaken (h : w.Registry none) (but : Option Nat) : w.Registry but where
  running := h.running
  answered := by
    intro a ha k hans
    obtain ⟨c, hc, hu, hs, hreg⟩ := h.answered a ha k hans
    exact ⟨c, hc, hu, hs, fun hr _ => hreg hr nofun⟩
  bound := h.bound
  listed := h.listed

theorem Sound.weaken (h : w.Sound none skip) (but : Option Nat) : w.Sound but skip :=
  ⟨h.owned.weaken but, h.registry.weaken but, h.undone⟩

section Subscriptions

theorem binds_eq_true {k d : Nat} :
    w.binds k d = true ↔ ∃ x, w.disposables[d]? = some x ∧ x.action = .stopController k := by
  unfold binds
  cases w.disposables[d]? with
  | none => simp
  | some x => cases hx : x.action <;> simp [CleanUp.controller?, hx]

theorem tame_of_contexts (cs : List Context) (ds : List Disposable) (ns : List Nat) :
    w.Tame { w with contexts := cs, disposables := ds, subscribed := ns } :=
  ⟨rfl, fun _ x hx => ⟨x, hx, rfl, rfl, id, rfl⟩, fun _ _ => Iff.rfl, fun _ => rfl,
    List.prefix_rfl⟩

/-- Subscriptions and disposables may change as long as what is registered stays so. -/
theorem Registry.of_registered (h : w.Registry but) {but' : Option Nat}
    (hacts : w'.history.activations = w.history.activations)
    (hc : w'.controllers = w.controllers)
    (hbound : ∀ (d : Nat) (x' : Disposable) (k : Nat), w'.disposables[d]? = some x' →
      x'.action = .stopController k →
        ∃ c, w.controllers[k]? = some c ∧ (c.state = .running ∨ c.state = .stopped))
    (hlisted : ∀ c ∈ w'.contexts, ∀ d ∈ c.subscriptions, d < w'.disposables.length)
    (hreg : ∀ a ∈ w.history.activations, ∀ k, a.answer = some (.ok (.activated k)) →
      but' ≠ some k → but ≠ some k ∧
        (w.Registered a.context k → w'.Registered a.context k)) : w'.Registry but' where
  running := by
    rw [hc]
    exact h.running
  answered := by
    intro a ha k hans
    rw [hacts] at ha
    obtain ⟨c, hk, hu, hs, hr⟩ := h.answered a ha k hans
    refine ⟨c, hc ▸ hk, hu, hs, fun hrun hbut => ?_⟩
    obtain ⟨hbut', hkeep⟩ := hreg a ha k hans hbut
    exact hkeep (hr hrun hbut')
  bound := by
    rw [hc]
    exact hbound
  listed := hlisted

theorem binds_congr
    (h : ∀ d : Nat, (w'.disposables[d]?).map Disposable.action =
      (w.disposables[d]?).map Disposable.action) (k : Nat) : w'.binds k = w.binds k := by
  funext d
  have hd := h d
  unfold binds
  cases hx : w.disposables[d]? with
  | none =>
    rw [hx] at hd
    rw [Option.map_eq_none_iff.mp hd]
  | some x =>
    rw [hx] at hd
    obtain ⟨y, hy, hact⟩ := Option.map_eq_some_iff.mp hd
    simp [hy, hact]

theorem map_action_modifyDisposable (w : World) (d e : Nat) :
    ((w.modifyDisposable d fun x => { x with disposed := true }).disposables[e]?).map
      Disposable.action = (w.disposables[e]?).map Disposable.action := by
  simp only [World.modifyDisposable, List.getElem?_modify]
  cases w.disposables[e]? with
  | none => rfl
  | some x =>
    dsimp only [Option.map_some]
    split <;> rfl

/-- A disposable that is bound to a controller is disposed when that controller is stopped. -/
theorem Sound.dispose {d : Nat} {x : Disposable} (h : w.Sound x.action.controller? none)
    (hx : w.disposables[d]? = some x) :
    (w.modifyDisposable d fun x => { x with disposed := true }).Sound x.action.controller? none where
  owned := h.owned.tame (tame_of_contexts _ _ _)
  registry := by
    refine h.registry.of_registered rfl rfl ?_ ?_ ?_
    · intro e y k hy hk
      obtain ⟨z, hz, ⟨_, rfl⟩ | ⟨_, rfl⟩⟩ := getElem?_modify_cases hy
      · exact h.registry.bound e z k hz hk
      · exact h.registry.bound e y k hz hk
    · intro c hc e he
      simpa [World.modifyDisposable] using h.registry.listed c hc e he
    · intro a _ k _ hbut
      refine ⟨hbut, ?_⟩
      rintro ⟨e, y, hb, hy, hlive⟩
      have hbe : w.binds k e = true := by
        have hmem : e ∈ w.bound a.context k := by rw [hb]; exact List.mem_singleton_self e
        exact (List.mem_filter.mp hmem).2
      have hne : d ≠ e := by
        rintro rfl
        obtain ⟨z, hz, hact⟩ := binds_eq_true.mp hbe
        rw [hx, Option.some.injEq] at hz
        rw [hz, hact] at hbut
        exact hbut rfl
      refine ⟨e, y, ?_, by simp [World.modifyDisposable, hne, hy], hlive⟩
      rw [World.bound, binds_congr (map_action_modifyDisposable w d)]
      exact hb
  undone := fun e he => (h.undone e he).tame h.owned (tame_of_contexts _ _ _)

/-- The last subscription of a context is taken out. If it is bound to a controller that runs, it has
not been disposed, and that controller is stopped next. -/
theorem Sound.pop {i d : Nat} {c : Context} {x : Disposable} (h : w.Sound none none)
    (hc : w.contexts[i]? = some c) (hd : c.subscriptions.getLast? = some d)
    (hx : w.disposables[d]? = some x) :
    (w.modifyContext i fun c => { c with subscriptions := c.subscriptions.dropLast }).Sound
      (if x.disposed then none else x.action.controller?) none where
  owned := (h.owned.weaken _).tame (tame_of_contexts _ _ _)
  registry := by
    refine h.registry.of_registered rfl rfl h.registry.bound ?_ ?_
    · intro c' hc' e he
      obtain ⟨j, hj⟩ := List.getElem?_of_mem hc'
      obtain ⟨c₀, hc₀, ⟨_, rfl⟩ | ⟨_, rfl⟩⟩ := getElem?_modify_cases hj
      · exact h.registry.listed c₀ (List.mem_of_getElem? hc₀) e ((List.dropLast_sublist _).mem he)
      · exact h.registry.listed c' (List.mem_of_getElem? hc₀) e he
    · intro a _ k _ hbut
      refine ⟨nofun, ?_⟩
      rintro ⟨e, y, hb, hy, hlive⟩
      refine ⟨e, y, ?_, hy, hlive⟩
      by_cases hi : i = a.context.toNat - 1
      · subst hi
        obtain ⟨ds, hds⟩ := List.getLast?_eq_some_iff.mp hd
        have hfree : w.binds k d = false := by
          cases hbd : w.binds k d with
          | false => rfl
          | true =>
            have hmem : d ∈ w.bound a.context k := by
              simp only [World.bound, hc, Option.map_some, Option.getD_some, List.mem_filter, hbd,
                and_true]
              exact List.mem_of_getLast? hd
            rw [hb, List.mem_singleton] at hmem
            subst hmem
            rw [hx, Option.some.injEq] at hy
            subst hy
            obtain ⟨z, hz, hact⟩ := binds_eq_true.mp hbd
            rw [hx, Option.some.injEq] at hz
            subst hz
            simp [hlive, hact, CleanUp.controller?] at hbut
        rw [← hb]
        simp only [World.bound, World.modifyContext, List.getElem?_modify_eq, hc, Option.map_some,
          Option.getD_some, hds, List.filter_append]
        have hbinds : ∀ cs : List Context, World.binds { w with contexts := cs } k = w.binds k :=
          fun _ => rfl
        simp [hbinds, hfree, hds]
      · rw [← hb]
        simp [World.bound, World.modifyContext, hi]
        rfl
  undone := fun e he => (h.undone e he).tame h.owned (tame_of_contexts _ _ _)

theorem binds_addDisposable {action : CleanUp} {k d : Nat} (hd : d < w.disposables.length) :
    (addDisposable action w).binds k d = w.binds k d := by
  simp [binds, addDisposable, List.getElem?_append_left hd]

theorem binds_addDisposable_new (action : CleanUp) (k : Nat) :
    (addDisposable action w).binds k w.disposables.length = (action.controller? == some k) := by
  simp [binds, addDisposable]

theorem lt_of_mem_bound (hl : ∀ c ∈ w.contexts, ∀ d ∈ c.subscriptions, d < w.disposables.length)
    {i d : Nat} (hd : d ∈ ((w.contexts[i]?).map fun c => c.subscriptions).getD []) :
    d < w.disposables.length := by
  cases hc : w.contexts[i]? with
  | none => simp [hc] at hd
  | some c => exact hl c (List.mem_of_getElem? hc) d (by simpa [hc] using hd)

theorem bound_addDisposable
    (hl : ∀ c ∈ w.contexts, ∀ d ∈ c.subscriptions, d < w.disposables.length) (action : CleanUp)
    (context : Int) (k : Nat) : (addDisposable action w).bound context k = w.bound context k :=
  List.filter_congr fun _ hd => binds_addDisposable (lt_of_mem_bound hl hd)

/-- A new disposable stops no controller, or one that no activation has answered yet. -/
theorem Sound.addDisposable (h : w.Sound none skip) (action : CleanUp)
    (hk : ∀ k, action = .stopController k →
      ∃ c, w.controllers[k]? = some c ∧ (c.state = .running ∨ c.state = .stopped)) :
    (addDisposable action w).Sound none skip where
  owned := h.owned.tame (tame_of_contexts _ _ _)
  registry := by
    refine h.registry.of_registered rfl rfl ?_ ?_ ?_
    · intro d x k hx hact
      simp only [EditorClient.addDisposable, List.getElem?_append] at hx
      split at hx
      · exact h.registry.bound d x k hx hact
      · have hmem := List.mem_of_getElem? hx
        rw [List.mem_singleton.mp hmem] at hact
        exact hk k hact
    · intro c hc d hd
      have := h.registry.listed c hc d hd
      simp only [EditorClient.addDisposable, List.length_append, List.length_singleton]
      omega
    · intro a _ k _ _
      refine ⟨nofun, ?_⟩
      rintro ⟨d, x, hb, hx, hlive⟩
      refine ⟨d, x, (bound_addDisposable h.registry.listed _ _ _).trans hb, ?_, hlive⟩
      exact getElem?_append_of_some hx
  undone := fun e he => (h.undone e he).tame h.owned (tame_of_contexts _ _ _)

theorem bound_register_of_ne {i d k : Nat} (hd : w.binds k d = false) (context : Int) :
    (register i d w).bound context k = w.bound context k := by
  have hbinds : (register i d w).binds k = w.binds k := rfl
  unfold bound
  rw [hbinds]
  simp only [register, World.modifyContext, List.getElem?_modify]
  cases w.contexts[context.toNat - 1]? with
  | none => rfl
  | some c =>
    dsimp only [Option.map_some]
    split
    · simp [List.filter_append, hd]
    · rfl

/-- A disposable is subscribed that stops no controller which an activation has answered. -/
theorem Sound.register (h : w.Sound none skip) {i d : Nat} (hd : d < w.disposables.length)
    (hfree : ∀ a ∈ w.history.activations, ∀ k, a.answer = some (.ok (.activated k)) →
      w.binds k d = false) : (register i d w).Sound none skip where
  owned := h.owned.tame (tame_of_contexts _ _ _)
  registry := by
    refine h.registry.of_registered rfl rfl h.registry.bound ?_ ?_
    · intro c hc e he
      obtain ⟨j, hj⟩ := List.getElem?_of_mem hc
      obtain ⟨c₀, hc₀, ⟨_, rfl⟩ | ⟨_, rfl⟩⟩ := getElem?_modify_cases hj
      · rcases List.mem_append.mp he with he | he
        · exact h.registry.listed c₀ (List.mem_of_getElem? hc₀) e he
        · exact List.mem_singleton.mp he ▸ hd
      · exact h.registry.listed c (List.mem_of_getElem? hc₀) e he
    · intro a ha k hans _
      refine ⟨nofun, ?_⟩
      rintro ⟨e, x, hb, hx, hlive⟩
      exact ⟨e, x, (bound_register_of_ne (hfree a ha k hans) _).trans hb, hx, hlive⟩
  undone := fun e he => (h.undone e he).tame h.owned (tame_of_contexts _ _ _)

/-- The first disposable bound to a controller is registered by its subscription. -/
theorem registered_addSubscription {i k : Nat} (hi : i < w.contexts.length)
    (hl : ∀ c ∈ w.contexts, ∀ d ∈ c.subscriptions, d < w.disposables.length)
    (hfree : ∀ d, w.binds k d = false) :
    (addSubscription (.stopController k) i w).Registered (i + 1) k := by
  refine ⟨w.disposables.length, ⟨.stopController k, false⟩, ?_, ?_, rfl⟩
  · have hc := List.getElem?_eq_getElem hi
    have hold : (w.contexts[i]).subscriptions.filter
        ((addDisposable (.stopController k) w).binds k) = [] := by
      rw [List.filter_eq_nil_iff]
      intro d hd
      rw [binds_addDisposable (hl _ (List.getElem_mem hi) d hd), hfree d]
      exact Bool.false_ne_true
    have hnew := w.binds_addDisposable_new (.stopController k) k
    have hnum : (i + 1 : Int).toNat - 1 = i := by omega
    have hctx : (addSubscription (.stopController k) i w).contexts[i]? =
        some { w.contexts[i] with
          subscriptions := w.contexts[i].subscriptions ++ [w.disposables.length] } :=
      (getElem?_modify_of_some _ hc).trans (by simp)
    unfold bound
    rw [hnum, hctx]
    change List.filter ((addDisposable (.stopController k) w).binds k)
      (w.contexts[i].subscriptions ++ [w.disposables.length]) = _
    rw [List.filter_append, hold]
    simp [hnew, CleanUp.controller?]
  · simp [addSubscription, EditorClient.register, World.modifyContext, EditorClient.addDisposable]

theorem Sound.addContext (h : w.Sound none skip) {c : Context} (hc : c.subscriptions = []) :
    (addContext c w).Sound none skip where
  owned := h.owned.tame (tame_of_contexts _ _ _)
  registry := by
    refine h.registry.of_registered rfl rfl h.registry.bound ?_ ?_
    · intro c' hc' d hd
      rcases List.mem_append.mp hc' with hc' | hc'
      · exact h.registry.listed c' hc' d hd
      · rw [List.mem_singleton.mp hc', hc] at hd
        cases hd
    · intro a _ k _ _
      refine ⟨nofun, ?_⟩
      rintro ⟨d, x, hb, hx, hlive⟩
      refine ⟨d, x, ?_, hx, hlive⟩
      rw [← hb]
      have hbinds : (EditorClient.addContext c w).binds k = w.binds k := rfl
      unfold bound
      rw [hbinds]
      simp only [EditorClient.addContext, List.getElem?_append]
      split
      · rfl
      · rename_i hlt
        rw [List.getElem?_eq_none (Nat.le_of_not_lt hlt)]
        cases a.context.toNat - 1 - w.contexts.length with
        | zero => simp [hc]
        | succ n => rfl
  undone := fun e he => (h.undone e he).tame h.owned (tame_of_contexts _ _ _)

end Subscriptions

section Controllers

theorem tame_modifyController (w : World) (k : Nat) {f : Controller → Controller}
    (hf : ∀ c, (f c).session = c.session) : w.Tame (w.modifyController k f) where
  history := rfl
  sessions := fun _ x hx => ⟨x, hx, rfl, rfl, id, rfl⟩
  holds := by
    intro j i
    constructor
    · rintro ⟨c, hc, hs⟩
      obtain ⟨x, hx, ⟨_, rfl⟩ | ⟨_, rfl⟩⟩ := getElem?_modify_cases hc
      · exact ⟨x, hx, (hf x).symm.trans hs⟩
      · exact ⟨c, hx, hs⟩
    · rintro ⟨c, hc, hs⟩
      refine ⟨_, getElem?_modify_of_some f hc, ?_⟩
      split
      · exact (hf c).trans hs
      · exact hs
  current := fun _ => rfl
  trace := List.prefix_rfl

/-- A controller that has not got as far as running may begin to start, or fail. -/
theorem Sound.modifyController (h : w.Sound none skip) {k : Nat} {f : Controller → Controller}
    (hk : ∀ c, w.controllers[k]? = some c → c.state = .unstarted ∨ c.state = .starting)
    (hf : ∀ c, (f c).session = c.session ∧ ((f c).state = .starting ∨ (f c).state = .failed)) :
    (w.modifyController k f).Sound none skip := by
  have ht := w.tame_modifyController k fun c => (hf c).1
  refine ⟨h.owned.tame ht, ⟨?_, ?_, ?_, h.registry.listed⟩,
    fun d hd => (h.undone d hd).tame h.owned ht⟩
  · intro j c' hc'
    obtain ⟨c, hc, ⟨rfl, rfl⟩ | ⟨_, rfl⟩⟩ := getElem?_modify_cases hc'
    · have hrun := h.registry.running k c hc
      rw [(hf c).1, ← hrun]
      rcases hk c hc with hs | hs <;> rcases (hf c).2 with hs' | hs' <;> simp [hs, hs']
    · exact h.registry.running j c' hc
  · intro a ha j hans
    obtain ⟨c, hc, hu, hs, hreg⟩ := h.registry.answered a ha j hans
    have hne : k ≠ j := by
      rintro rfl
      rcases hk c hc with hst | hst
      · exact hu hst
      · exact hs hst
    exact ⟨c, by simp [World.modifyController, hne, hc], hu, hs, hreg⟩
  · intro d x j hx hact
    obtain ⟨c, hc, hst⟩ := h.registry.bound d x j hx hact
    have hne : k ≠ j := by
      rintro rfl
      rcases hk c hc with hs | hs <;> simp [hs] at hst
    exact ⟨c, by simp [World.modifyController, hne, hc], hst⟩

theorem Sound.addController (h : w.Sound none skip) (n : Notifier) :
    (addController ⟨n, none, .unstarted⟩ w).Sound none skip := by
  have ht : w.Tame (EditorClient.addController ⟨n, none, .unstarted⟩ w) :=
    ⟨rfl, fun _ x hx => ⟨x, hx, rfl, rfl, id, rfl⟩, holds_addController n w, fun _ => rfl,
      List.prefix_rfl⟩
  refine ⟨h.owned.tame ht, ⟨?_, ?_, ?_, h.registry.listed⟩,
    fun d hd => (h.undone d hd).tame h.owned ht⟩
  · intro k c hc
    simp only [EditorClient.addController, List.getElem?_append] at hc
    split at hc
    · exact h.registry.running k c hc
    · rw [List.mem_singleton.mp (List.mem_of_getElem? hc)]
      simp
  · intro a ha k hans
    obtain ⟨c, hc, hrest⟩ := h.registry.answered a ha k hans
    exact ⟨c, getElem?_append_of_some hc, hrest⟩
  · intro d x k hx hact
    obtain ⟨c, hc, hst⟩ := h.registry.bound d x k hx hact
    exact ⟨c, getElem?_append_of_some hc, hst⟩

theorem Sound.addBootstrap (h : w.Sound but skip) (config : Config) :
    (addBootstrap ⟨config, none⟩ w).Sound but skip :=
  h.tame ⟨rfl, fun _ x hx => ⟨x, hx, rfl, rfl, id, rfl⟩, fun _ _ => Iff.rfl,
    current_addBootstrap config w, List.prefix_rfl⟩ rfl rfl rfl

/-- How a bootstrap's change of controller leaves an activation. It is the same apart from its hold, and
what was lost stays so. -/
theorem activation_of_hold {b n : Nat} {controller : Option Nat} {a' : Activation}
    (ha' : (w.hold b controller).history.activations[n]? = some a') :
    ∃ a hold, w.history.activations[n]? = some a ∧ a' = { a with hold := hold } ∧
      a' = w.history.rehold (b + 1) controller.isSome n a := by
  rw [history_hold, History.getElem?_hold] at ha'
  obtain ⟨a, ha, rfl⟩ := Option.map_eq_some_iff.mp ha'
  obtain ⟨hold, he⟩ := w.history.rehold_eq (b + 1) controller.isSome n a
  exact ⟨a, hold, ha, he, rfl⟩

theorem unrefused_hold {b i : Nat} {controller : Option Nat}
    (h : (w.hold b controller).Unrefused i) : w.Unrefused i :=
  h.of_trace (List.prefix_append _ _) fun x hx => ⟨x, hx, rfl, rfl⟩

/-- A bootstrap may change its controller, unless an activation that has it in its turn owns a session
that runs. -/
theorem Owned.hold (h : w.Owned none skip) {b : Nat} (controller : Option Nat)
    (hskip : controller.isSome = true → ∀ n, w.history.innermost? = some n → skip = some n)
    (hb : ∀ (n : Nat) (a : Activation) (i m : Nat), skip ≠ some n →
      w.history.activations[n]? = some a → a.session = some i → a.bootstrap = b + 1 →
      a.hold = .current → w.history.isSurprised controller.isSome n a = false →
      a.answer = some (.ok (.activated m)) → w.current b = some m → but ≠ some m → ¬w.Runs i) :
    (w.hold b controller).Owned but skip where
  owns := by
    intro n a' i hn ha' hi
    obtain ⟨a, hold, ha, he, hre⟩ := activation_of_hold ha'
    have hinner : controller.isSome = true → w.history.innermost? ≠ some n :=
      fun hc hm => hn (hskip hc n hm)
    have hev := History.rehold_evolves hinner (b + 1) a
    rw [← hre] at hev
    have ho := h.owns n a i hn ha (hev.session.symm.trans hi)
    refine ⟨ho.session, hev.bootstrap ▸ ho.bootstrap, fun hr => ?_, fun k hk => ?_⟩
    · rcases ho.running hr with ⟨hret, hlog⟩ | ⟨m, hans, hm, hcur⟩
      · exact .inl ⟨hev.returned.trans hret, mt unrefused_hold hlog⟩
      · refine .inr ⟨m, hev.answer.trans hans, hm, fun hne => ?_⟩
        rcases hcur nofun with hl | ⟨hc, hcur⟩
        · exact .inl (hev.lost hl)
        · by_cases hab : a.bootstrap = b + 1
          · left
            rw [show a.bootstrap.toNat - 1 = b by omega] at hcur
            cases hs : w.history.isSurprised controller.isSome n a with
            | true =>
              rw [hre, History.rehold, if_neg fun hi => hinner hi.1 hi.2, if_pos ⟨hab, hc⟩, hs]
              rfl
            | false =>
              exact absurd hr (hb n a i m hn ha (hev.session.symm.trans hi) hab hc hs hans hcur hne)
          · right
            have hsame : a' = a := hre.trans (History.rehold_of_ne hinner hab)
            have hpos := ho.bootstrap
            have hother : b ≠ a.bootstrap.toNat - 1 := by omega
            rw [hsame]
            refine ⟨hc, ?_⟩
            rw [← hcur]
            simp [World.current, World.hold, World.happen, World.modifyBootstrap, hother]
    · rw [hev.answer, history_hold]
      exact ho.held k hk
  distinct := by
    intro n m a' b' i ha' hb' hi hi'
    obtain ⟨a, hold, ha, rfl, _⟩ := activation_of_hold ha'
    obtain ⟨b, hold', hb, rfl, _⟩ := activation_of_hold hb'
    exact h.distinct n m a b i ha hb hi hi'
  made := by
    intro a' ha' i hi
    obtain ⟨n, hn⟩ := List.getElem?_of_mem ha'
    obtain ⟨a, hold, ha, rfl, _⟩ := activation_of_hold hn
    exact h.made a (List.mem_of_getElem? ha) i hi
  held := h.held

theorem Registry.hold (h : w.Registry but) (b : Nat) (controller : Option Nat) :
    (w.hold b controller).Registry but := by
  refine h.of_eq (fun a' ha' k _ => ?_) rfl rfl rfl
  obtain ⟨n, hn⟩ := List.getElem?_of_mem ha'
  obtain ⟨a, hold, ha, rfl, _⟩ := activation_of_hold hn
  exact ⟨a, List.mem_of_getElem? ha, rfl, rfl⟩

/-- The activation that makes the new controller is still under way, so that no deactivation has found
it ended. -/
theorem Undone.hold (h : w.Undone) {b : Nat} {controller : Option Nat}
    (hopen : controller.isSome = true → ∀ n, w.history.innermost? = some n →
      ∃ a, w.history.activations[n]? = some a ∧ a.answer = none) : (w.hold b controller).Undone := by
  intro d hd n a' i hn ha' hab hlost hi hlog hr
  rw [history_hold] at hd
  obtain ⟨a, hold, ha, _, hre⟩ := activation_of_hold ha'
  obtain ⟨x, hx, hans⟩ := (History.orderly_ofTrace w.trace).returned d hd n hn
  have hinner : controller.isSome = true → w.history.innermost? ≠ some n := by
    intro hc hm
    obtain ⟨y, hy, hnone⟩ := hopen hc n hm
    rw [Option.some.inj (hx.symm.trans hy), hnone] at hans
    cases hans
  have hev := History.rehold_evolves hinner (b + 1) a
  rw [← hre] at hev
  exact h d hd n a i hn ha (hev.bootstrap.symm.trans hab) (hev.not_lost hlost)
    (hev.session.symm.trans hi) (hlog.imp (fun hret => hev.returned ▸ hret) unrefused_hold) hr

/-- A bootstrap may give up its controller when that is stopped next. -/
theorem Sound.giveUp (h : w.Sound none none) {b k : Nat} (hk : w.current b = some k) :
    (w.hold b none).Sound (some k) none where
  owned := h.owned.hold none nofun fun _ _ _ _ _ _ _ _ _ _ _ hcur hne =>
    absurd (hk.symm.trans hcur) hne
  registry := (h.registry.weaken _).hold b none
  undone := h.undone.hold nofun

/-- A bootstrap may take the controller of the innermost activation when none of its other activations
owns a session that runs, unless that has lost its controller or loses it by this. -/
theorem Sound.takeUp (h : w.Sound none skip) {b : Nat} (k : Nat)
    (hinner : ∀ n, w.history.innermost? = some n → skip = some n ∧
      ∃ a, w.history.activations[n]? = some a ∧ a.answer = none)
    (hb : ∀ (n : Nat) (a : Activation) (i : Nat), skip ≠ some n →
      w.history.activations[n]? = some a → a.session = some i → a.bootstrap = b + 1 →
      a.hold = .current → w.history.isSurprised true n a = false → a.returned = true → ¬w.Runs i) :
    (w.hold b (some k)).Sound none skip where
  owned := h.owned.hold (some k) (fun _ n hn => (hinner n hn).1)
    fun n a i _ hn ha hi hab hc hs hans _ _ =>
      hb n a i hn ha hi hab hc hs (by simp [Activation.returned, hans])
  registry := h.registry.hold b (some k)
  undone := h.undone.hold fun _ n hn => (hinner n hn).2

end Controllers

section Sessions

theorem Sound.addSession (h : w.Sound but skip) (x : Session) : (addSession x w).Sound but skip :=
  h.tame ⟨rfl, fun _ y hy => ⟨y, getElem?_append_of_some hy, rfl, rfl, id, rfl⟩, fun _ _ => Iff.rfl,
    fun _ => rfl, List.prefix_rfl⟩ rfl rfl rfl

theorem runs_modifySession_of_ne {i j : Nat} {f : Session → Session} (hij : i ≠ j) :
    (w.modifySession i f).Runs j ↔ w.Runs j := by
  simp [Runs, World.modifySession, hij]

theorem unrefused_modifySession_of_ne {i j : Nat} {f : Session → Session} (hij : i ≠ j) :
    (w.modifySession i f).Unrefused j ↔ w.Unrefused j := by
  simp [Unrefused, World.modifySession, hij]

/-- The session of an activation that is still at work on it, or one that no activation made, may
begin to run. -/
theorem Sound.markInitialized (h : w.Sound none none) {i : Nat}
    (hi : ∀ (n : Nat) (a : Activation), w.history.activations[n]? = some a →
      a.session = some i → skip = some n ∧ a.answer = none) :
    (w.modifySession i fun s => { s with initialized := true }).Sound none skip where
  owned := by
    refine ⟨fun n a j hn ha hj => ?_, h.owned.distinct, fun a ha j hj => ?_, fun k j hk => ?_⟩
    · have hij : i ≠ j := by
        rintro rfl
        exact hn (hi n a ha hj).1
      have ho := h.owns_at ha hj
      refine ⟨?_, ho.bootstrap, fun hr => ?_, fun k hk => ?_⟩
      · simpa [World.modifySession, hij] using ho.session
      · rw [unrefused_modifySession_of_ne hij]
        exact ho.running ((runs_modifySession_of_ne hij).mp hr)
      · rw [runs_modifySession_of_ne hij]
        exact ho.held k hk
    · simpa [World.modifySession] using h.owned.made a ha j hj
    · simpa [World.modifySession] using h.owned.held k j hk
  registry := h.registry.of_eq (fun a ha _ _ => ⟨a, ha, rfl, rfl⟩) rfl rfl rfl
  undone := by
    intro d hd n a j hn ha hb hc hj hlog hr
    by_cases hij : i = j
    · obtain ⟨x, hx, hans⟩ := (History.orderly_ofTrace w.trace).returned d hd n hn
      rw [Option.some.inj (hx.symm.trans ha), (hi n a ha (hij ▸ hj)).2] at hans
      cases hans
    · rw [unrefused_modifySession_of_ne hij] at hlog
      exact h.undone d hd n a j hn ha hb hc hj hlog ((runs_modifySession_of_ne hij).mp hr)

theorem Registry.unheld (h : w.Registry but) {k : Nat} {c : Controller}
    (hc : w.controllers[k]? = some c) (hr : c.state ≠ .running) (j : Nat) : ¬w.Holds k j := by
  rintro ⟨c', hc', hs⟩
  rw [hc, Option.some.injEq] at hc'
  subst hc'
  exact hr ((h.running k c hc).mpr (by rw [hs]; rfl))

theorem holds_of_run {k i m j : Nat}
    (hm : (w.modifyController k fun c => { c with session := some i, state := .running }).Holds m j) :
    m = k ∧ j = i ∨ w.Holds m j := by
  obtain ⟨x, hx, hs⟩ := hm
  obtain ⟨y, hy, ⟨hkm, rfl⟩ | ⟨_, rfl⟩⟩ := getElem?_modify_cases hx
  · exact .inl ⟨hkm.symm, (Option.some.inj hs).symm⟩
  · exact .inr ⟨x, hy, hs⟩

theorem Owned.run (h : w.Owned none skip) {k i : Nat} (hfree : ∀ j, ¬w.Holds k j)
    (hlt : i < w.sessions.length)
    (hi : ∀ (n : Nat) (a : Activation), w.history.activations[n]? = some a →
      a.session = some i → skip = some n) :
    (w.modifyController k fun c => { c with session := some i, state := .running }).Owned
      none skip where
  owns := by
    intro n a j hn ha hj
    have ho := h.owns n a j hn ha hj
    refine ⟨ho.session, ho.bootstrap, fun hr => (ho.running hr).imp_right ?_, fun m hm => ?_⟩
    · rintro ⟨m, hans, hm, hcur⟩
      have hkm : k ≠ m := by
        rintro rfl
        exact hfree j hm
      obtain ⟨x, hx, hs⟩ := hm
      exact ⟨m, hans, ⟨x, by simp [World.modifyController, hkm, hx], hs⟩, hcur⟩
    · rcases holds_of_run hm with ⟨_, rfl⟩ | hm
      · exact absurd (hi n a ha hj) hn
      · exact ho.held m hm
  distinct := h.distinct
  made := h.made
  held := by
    intro m j hm
    rcases holds_of_run hm with ⟨_, rfl⟩ | hm
    · exact hlt
    · exact h.held m j hm

theorem Registry.run (h : w.Registry none) {k i : Nat} {c : Controller}
    (hc : w.controllers[k]? = some c) (hst : c.state = .starting) :
    (w.modifyController k fun c => { c with session := some i, state := .running }).Registry
      none where
  running := by
    intro m x hx
    obtain ⟨y, hy, ⟨_, rfl⟩ | ⟨_, rfl⟩⟩ := getElem?_modify_cases hx
    · simp
    · exact h.running m x hy
  answered := by
    intro a ha m hans
    obtain ⟨x, hx, hu, hs, hreg⟩ := h.answered a ha m hans
    have hkm : k ≠ m := by
      rintro rfl
      rw [hc, Option.some.injEq] at hx
      exact hs (hx ▸ hst)
    exact ⟨x, by simp [World.modifyController, hkm, hx], hu, hs, hreg⟩
  bound := by
    intro d x m hx hact
    obtain ⟨y, hy, hys⟩ := h.bound d x m hx hact
    refine ⟨_, getElem?_modify_of_some _ hy, ?_⟩
    split
    · exact .inl rfl
    · exact hys
  listed := h.listed

/-- A controller that starts may take a session that no other activation made. -/
theorem Sound.run (h : w.Sound none skip) {k i : Nat} {c : Controller}
    (hc : w.controllers[k]? = some c) (hst : c.state = .starting) (hlt : i < w.sessions.length)
    (hi : ∀ (n : Nat) (a : Activation), w.history.activations[n]? = some a →
      a.session = some i → skip = some n) :
    (w.modifyController k fun c => { c with session := some i, state := .running }).Sound
      none skip := by
  have hfree := h.registry.unheld hc (by rw [hst]; exact nofun)
  exact ⟨h.owned.run hfree hlt hi, h.registry.run hc hst, h.undone⟩

end Sessions

section Events

theorem unrefused_happen {i : Nat} {e : Event} (h : (w.happen e).Unrefused i) : w.Unrefused i :=
  h.of_trace (List.prefix_append _ _) fun x hx => ⟨x, hx, rfl, rfl⟩

/-- How a session is owned depends on the history only in whether the host has meddled. -/
theorem Owns.happen {a : Activation} {i : Nat} (h : w.Owns but a i) {e : Event}
    (hm : (w.history.next e).meddled = w.history.meddled) : (w.happen e).Owns but a i :=
  ⟨h.session, h.bootstrap, fun hr => (h.running hr).imp_left fun hlog =>
      ⟨hlog.1, mt unrefused_happen hlog.2⟩,
    fun k hk => by
      rw [history_happen, hm]
      exact h.held k hk⟩

theorem Owned.happen (h : w.Owned but skip) {e : Event}
    (hact : w.history.Inherits (w.history.next e))
    (hm : (w.history.next e).meddled = false → w.history.meddled = false) :
    (w.happen e).Owned but skip where
  owns := by
    intro n a i hn ha hi
    rw [history_happen] at ha
    have ho := h.owns n a i hn (hact n a ha (.inl (by rw [hi]; rfl))) hi
    refine ⟨ho.session, ho.bootstrap, fun hr => (ho.running hr).imp_left fun hlog =>
      ⟨hlog.1, mt unrefused_happen hlog.2⟩, fun k hk => ?_⟩
    rw [history_happen]
    exact ⟨(ho.held k hk).1, fun hmed => (ho.held k hk).2 (hm hmed)⟩
  distinct := by
    rw [history_happen]
    intro n m a b i ha hb hi hi'
    exact h.distinct n m a b i (hact n a ha (.inl (by rw [hi]; rfl)))
      (hact m b hb (.inl (by rw [hi']; rfl))) hi hi'
  made := by
    rw [history_happen]
    intro a ha i hi
    obtain ⟨n, hn⟩ := List.getElem?_of_mem ha
    exact h.made a (List.mem_of_getElem? (hact n a hn (.inl (by rw [hi]; rfl)))) i hi
  held := h.held

/-- A new activation may begin. -/
theorem Sound.happen (h : w.Sound but skip) (e : Event)
    (hact : w.history.Inherits (w.history.next e))
    (hm : (w.history.next e).meddled = false → w.history.meddled = false)
    (hd : (w.happen e).Undone) : (w.happen e).Sound but skip := by
  refine ⟨h.owned.happen hact hm, h.registry.of_eq (fun a ha k hans => ?_) rfl rfl rfl, hd⟩
  rw [history_happen] at ha
  obtain ⟨n, hn⟩ := List.getElem?_of_mem ha
  exact ⟨a, List.mem_of_getElem? (hact n a hn (.inr (by rw [hans]; rfl))), rfl, rfl⟩

theorem Quieted.happen {b : Int} {ended : List Nat} (h : w.Quieted b ended) (e : Event)
    (hact : w.history.Inherits (w.history.next e)) : (w.happen e).Quieted b ended := by
  intro n a i hn ha hb hc hi hlog hr
  rw [history_happen] at ha
  exact h n a i hn (hact n a ha (.inl (by rw [hi]; rfl))) hb hc hi
    (hlog.imp_right unrefused_happen) hr

theorem Sound.begin (h : w.Sound none none) (step : Step) :
    (w.happen (.began step)).Sound none none := by
  have hact : w.history.Inherits (w.history.next (.began step)) := w.history.inherits_begin step
  refine h.happen _ hact (fun hm => ?_) fun d hd => ?_
  · simp only [History.next, History.begin, Bool.or_eq_false_iff] at hm
    exact hm.1
  · rw [history_happen] at hd
    exact (h.undone d hd).happen _ hact

/-- An event that leaves the activations as they are. -/
theorem Sound.happen_of_activations (h : w.Sound but skip) {e : Event}
    (hact : (w.history.next e).activations = w.history.activations)
    (hm : (w.history.next e).meddled = w.history.meddled)
    (hd : ∀ d ∈ (w.history.next e).deactivations,
      d ∈ w.history.deactivations ∨ w.Quieted d.bootstrap d.ended) : (w.happen e).Sound but skip := by
  have hkeep := History.inherits_of_activations hact
  refine h.happen e hkeep (fun hmed => hm ▸ hmed) fun d hmem => ?_
  rw [history_happen] at hmem
  rcases hd d hmem with hmem | hq
  · exact (h.undone d hmem).happen e hkeep
  · exact hq.happen e hkeep

theorem Sound.finish_other (h : w.Sound but skip) {step : Step} (hs : step.isOther = true) {n : Nat}
    {rest : List StepUnderWay} (hu : w.history.underWay = ⟨step, n⟩ :: rest) (answer : Answer) :
    (w.happen (.ended answer)).Sound but skip := by
  have he : w.history.next (.ended answer) = { w.history with underWay := rest } :=
    History.finish_other hs hu answer
  exact h.happen_of_activations (by rw [he]) (by rw [he]) (by rw [he]; exact fun d hd => .inl hd)

theorem Sound.finish_deactivate (h : w.Sound but skip) {b : Int} {n : Nat}
    {rest : List StepUnderWay} (hu : w.history.underWay = ⟨.deactivate b, n⟩ :: rest)
    (answer : Answer) (hq : ∀ r, answer = .ok r → w.Quieted b (w.history.ended n)) :
    (w.happen (.ended answer)).Sound but skip := by
  have he : w.history.next (.ended answer) = _ := History.finish_deactivate hu answer
  refine h.happen_of_activations (by rw [he]) (by rw [he]) ?_
  rw [he]
  intro d hd
  rcases List.mem_append.mp hd with hd | hd
  · exact .inl hd
  · cases answer with
    | error f => simp at hd
    | ok r =>
      rw [List.mem_singleton.mp hd]
      exact .inr (hq r rfl)

section Activations

variable {b c : Int} {n : Nat} {rest : List StepUnderWay}

/-- The end of an activation changes nothing among the activations but its own answer. -/
theorem activations_ended (hu : w.history.underWay = ⟨.activate b c, n⟩ :: rest) {a : Activation}
    (ha : w.history.activations[n]? = some a) {answer : Answer} {m : Nat} {a' : Activation}
    (ha' : (w.happen (.ended answer)).history.activations[m]? = some a') :
    m = n ∧ a' = { a with answer := some answer } ∨
      m ≠ n ∧ w.history.activations[m]? = some a' := by
  rw [history_happen, History.next, History.finish_activate hu answer] at ha'
  obtain ⟨x, hx, ⟨rfl, rfl⟩ | ⟨hne, rfl⟩⟩ := getElem?_modify_cases ha'
  · rw [ha, Option.some.injEq] at hx
    exact .inl ⟨rfl, by rw [hx]⟩
  · exact .inr ⟨Ne.symm hne, hx⟩

theorem Owned.finish_activate (h : w.Owned none skip) (hskip : ∀ m, skip = some m → m = n)
    (hu : w.history.underWay = ⟨.activate b c, n⟩ :: rest) {a : Activation}
    (ha : w.history.activations[n]? = some a) {answer : Answer}
    (howns : ∀ i, a.session = some i → w.Owns none { a with answer := some answer } i) :
    (w.happen (.ended answer)).Owned none none := by
  have hsession : ∀ {m : Nat} {a' : Activation},
      (w.happen (.ended answer)).history.activations[m]? = some a' →
        ∃ x, w.history.activations[m]? = some x ∧ x.session = a'.session := by
    intro m a' ha'
    rcases activations_ended hu ha ha' with ⟨rfl, rfl⟩ | ⟨_, ha'⟩
    · exact ⟨a, ha, rfl⟩
    · exact ⟨a', ha', rfl⟩
  refine ⟨fun m a' i _ ha' hi => ?_, fun m m' a' b' i ha' hb' hi hi' => ?_,
    fun a' ha' i hi => ?_, h.held⟩
  · have ho : w.Owns none a' i := by
      rcases activations_ended hu ha ha' with ⟨rfl, rfl⟩ | ⟨hne, ha'⟩
      · exact howns i hi
      · exact h.owns m a' i (fun hs => hne (hskip m hs)) ha' hi
    exact ho.happen (by rw [History.next, History.finish_activate hu])
  · obtain ⟨x, hx, hxs⟩ := hsession ha'
    obtain ⟨y, hy, hys⟩ := hsession hb'
    exact h.distinct m m' x y i hx hy (hxs.trans hi) (hys.trans hi')
  · obtain ⟨m, hm⟩ := List.getElem?_of_mem ha'
    obtain ⟨x, hx, hxs⟩ := hsession hm
    exact h.made x (List.mem_of_getElem? hx) i (hxs.trans hi)

/-- An activation ends. -/
theorem Sound.finish_activate (h : w.Sound none skip) (hskip : ∀ m, skip = some m → m = n)
    (hu : w.history.underWay = ⟨.activate b c, n⟩ :: rest) {a : Activation}
    (ha : w.history.activations[n]? = some a) (hopen : a.answer = none) (answer : Answer)
    (howns : ∀ i, a.session = some i → w.Owns none { a with answer := some answer } i)
    (hreg : ∀ k, answer = .ok (.activated k) → ∃ c, w.controllers[k]? = some c ∧
      c.state ≠ .unstarted ∧ c.state ≠ .starting ∧
        (c.state = .running → w.Registered a.context k)) :
    (w.happen (.ended answer)).Sound none none where
  owned := h.owned.finish_activate hskip hu ha howns
  registry := by
    refine ⟨h.registry.running, fun a' ha' k hans => ?_, h.registry.bound, h.registry.listed⟩
    obtain ⟨m, hm⟩ := List.getElem?_of_mem ha'
    rcases activations_ended hu ha hm with ⟨rfl, rfl⟩ | ⟨_, hm⟩
    · obtain ⟨x, hx, hu', hs', hr⟩ := hreg k (Option.some.inj hans)
      exact ⟨x, hx, hu', hs', fun hrun _ => hr hrun⟩
    · exact h.registry.answered a' (List.mem_of_getElem? hm) k hans
  undone := by
    intro d hd m a' i hm ha' hb hc hi hlog hr
    rw [history_happen, History.next, History.finish_activate hu answer] at hd
    rcases activations_ended hu ha ha' with ⟨rfl, rfl⟩ | ⟨_, ha'⟩
    · -- No deactivation has found it ended.
      obtain ⟨x, hx, hans⟩ := (History.orderly_ofTrace w.trace).returned d hd m hm
      rw [Option.some.inj (hx.symm.trans ha), hopen] at hans
      cases hans
    · exact h.undone d hd m a' i hm ha' hb hc hi (hlog.imp_right unrefused_happen) hr

/-- An activation's new session is marked as its own. -/
theorem activations_made (hu : w.history.underWay = ⟨.activate b c, n⟩ :: rest) {session m : Nat}
    {a' : Activation} (ha' : (w.happen (.madeClient session)).history.activations[m]? = some a') :
    m = n ∧ a'.session = some session ∧
        (∃ a ∈ w.history.activations, a.answer = a'.answer ∧ a.context = a'.context) ∨
      m ≠ n ∧ w.history.activations[m]? = some a' := by
  rw [history_happen, History.next, History.make_activate hu session] at ha'
  obtain ⟨y, hy, ⟨rfl, rfl⟩ | ⟨hne, rfl⟩⟩ := getElem?_modify_cases ha'
  · exact .inl ⟨rfl, rfl, y, List.mem_of_getElem? hy, rfl, rfl⟩
  · exact .inr ⟨Ne.symm hne, hy⟩

/-- A session that is the newest belongs to no other activation yet. -/
theorem Owned.make (h : w.Owned none none) (hu : w.history.underWay = ⟨.activate b c, n⟩ :: rest)
    {session : Nat} (hlt : session < w.sessions.length)
    (hnew : ∀ (m : Nat) (a : Activation) (i : Nat), w.history.activations[m]? = some a →
      a.session = some i → i < session) :
    (w.happen (.madeClient session)).Owned none (some n) where
  owns := by
    intro m a' i hm ha' hi
    rcases activations_made hu ha' with ⟨rfl, _⟩ | ⟨_, ha'⟩
    · exact absurd rfl hm
    · exact (h.owns m a' i nofun ha' hi).happen (by rw [History.next, History.make_activate hu])
  distinct := by
    intro m m' a' b' i ha' hb' hi hi'
    rcases activations_made hu ha' with ⟨rfl, hs, _⟩ | ⟨_, ha'⟩ <;>
      rcases activations_made hu hb' with ⟨rfl, hs', _⟩ | ⟨_, hb'⟩
    · rfl
    · have hlt := hnew m' b' i hb' hi'
      rw [hs, Option.some.injEq] at hi
      omega
    · have hlt := hnew m a' i ha' hi
      rw [hs', Option.some.injEq] at hi'
      omega
    · exact h.distinct m m' a' b' i ha' hb' hi hi'
  made := by
    intro a' ha' i hi
    change i < w.sessions.length
    obtain ⟨m, hm⟩ := List.getElem?_of_mem ha'
    rcases activations_made hu hm with ⟨_, hs, _⟩ | ⟨_, hm⟩
    · rw [hs, Option.some.injEq] at hi
      omega
    · exact Nat.lt_trans (hnew m a' i hm hi) hlt
  held := h.held

/-- An activation makes its session, which is the newest and does not run. -/
theorem Sound.make (h : w.Sound none none) (hu : w.history.underWay = ⟨.activate b c, n⟩ :: rest)
    {x : Session} (hx : x.isRunning = false) :
    ((EditorClient.addSession x w).happen (.madeClient w.sessions.length)).Sound none (some n) := by
  have h' := h.addSession x
  have hu' : (EditorClient.addSession x w).history.underWay = ⟨.activate b c, n⟩ :: rest := hu
  refine ⟨h'.owned.make hu' ?_ fun m a i ha hi => ?_, ?_, ?_⟩
  · simp [EditorClient.addSession]
  · exact h.owned.made a (List.mem_of_getElem? ha) i hi
  · refine h'.registry.of_eq (fun a' ha' k hans => ?_) rfl rfl rfl
    obtain ⟨m, hm⟩ := List.getElem?_of_mem ha'
    rcases activations_made hu' hm with ⟨_, _, a, ha, hans', hctx⟩ | ⟨_, hm⟩
    · exact ⟨a, ha, hans', hctx⟩
    · exact ⟨a', List.mem_of_getElem? hm, rfl, rfl⟩
  · intro d hd m a' i hm ha' hb hc hi hlog hr
    rw [history_happen, History.next, History.make_activate hu'] at hd
    rcases activations_made hu' ha' with ⟨_, hs, _⟩ | ⟨_, ha'⟩
    · rw [hs, Option.some.injEq] at hi
      subst hi
      obtain ⟨y, hy, hyr⟩ := hr
      simp only [World.happen, EditorClient.addSession, List.getElem?_concat_length,
        Option.some.injEq] at hy
      rw [← hy, hx] at hyr
      cases hyr
    · exact h'.undone d hd m a' i hm ha' hb hc hi (hlog.imp_right unrefused_happen) hr

end Activations

theorem Sound.unskip {n : Nat} (h : w.Sound but (some n))
    (hn : ∀ a i, w.history.activations[n]? = some a → a.session = some i → w.Owns but a i) :
    w.Sound but none where
  owned := by
    refine ⟨fun m a i _ ha hi => ?_, h.owned.distinct, h.owned.made, h.owned.held⟩
    by_cases hm : n = m
    · subst hm
      exact hn a i ha hi
    · exact h.owned.owns m a i (by simpa using hm) ha hi
  registry := h.registry
  undone := h.undone

theorem sound_initial (directory : String) (log : LogDirectory) :
    (World.initial directory log).Sound none none := by
  have hh : (World.initial directory log).history = History.empty := rfl
  refine ⟨⟨fun n a i _ ha => ?_, fun n m a b i ha => ?_, fun a ha => ?_, fun k i hk => ?_⟩,
    ⟨fun k c hc => ?_, fun a ha => ?_, fun d x k hx => ?_, fun c hc => ?_⟩, fun d hd => ?_⟩
  · simp [hh, History.empty] at ha
  · simp [hh, History.empty] at ha
  · simp [hh, History.empty] at ha
  · simp [World.initial, Holds] at hk
  · simp [World.initial] at hc
  · simp [hh, History.empty] at ha
  · simp [World.initial] at hx
  · simp [World.initial] at hc
  · simp [hh, History.empty] at hd

end Events

end World

end EditorClient

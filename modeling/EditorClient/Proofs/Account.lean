import EditorClient.Proofs.SessionSteps

/-! What a procedure does by itself. The steps that others take during its calls show in the settings
that the calls leave, but are no deeds of its own. -/

namespace EditorClient

/-- An update or a call of a procedure's own. -/
inductive Deed where
  | update (before after : World)
  | exchange (x : Exchange)

def Deed.exchange? : Deed → Option Exchange
  | exchange x => some x
  | update .. => none

/-- A setting, and what a procedure has done by itself to reach it. -/
structure Account where
  setting : Setting
  deeds : List Deed

/-- A record is refused because a file cannot be opened. -/
theorem World.isOs_of_refusal {w : World} {r : LogRecord} {f : Fault} (h : w.refusal? r = some f) :
    f.isOs = true := by
  unfold refusal? at h
  split at h
  · obtain ⟨fault, _, rfl⟩ := Option.map_eq_some_iff.mp h
    exact fault.isOs
  · cases h

theorem World.isOrdinary_of_refusal {w : World} {r : LogRecord} {f : Fault}
    (h : w.refusal? r = some f) : f.isOrdinary = true :=
  FaultKind.isOrdinary_of_isOs (isOs_of_refusal h)

theorem World.refusal?_eq_none_iff {w : World} {r : LogRecord} :
    w.refusal? r = none ↔ (w.emits r = true → ∀ h ∈ w.reached r, w.opening? h = none) := by
  unfold refusal?
  split <;> simp_all

namespace Account

variable (respond : Call → Setting → Except Fault Reply × Setting) (a : Account)

def world : World := a.setting.world

def exchanges : List Exchange := a.deeds.filterMap Deed.exchange?

def update (f : World → World) : Account :=
  ⟨{ a.setting with world := f a.world }, a.deeds ++ [.update a.world (f a.world)]⟩

/-- The call, as it is made in the account's setting. -/
def made (c : Call) : Exchange := ⟨c, a.setting, (respond c a.setting).1, (respond c a.setting).2⟩

def exchange (c : Call) : Account :=
  ⟨(respond c a.setting).2, a.deeds ++ [.exchange (a.made respond c)]⟩

@[simp]
theorem world_update (f : World → World) : (a.update f).world = f a.world := rfl

@[simp]
theorem world_exchange (c : Call) :
    (a.exchange respond c).world = (respond c a.setting).2.world := rfl

@[simp]
theorem exchanges_update (f : World → World) : (a.update f).exchanges = a.exchanges := by
  simp [exchanges, update, Deed.exchange?]

@[simp]
theorem exchanges_exchange (c : Call) :
    (a.exchange respond c).exchanges = a.exchanges ++ [a.made respond c] := by
  simp [exchanges, exchange, Deed.exchange?]

theorem mem_exchanges {a : Account} {x : Exchange} :
    x ∈ a.exchanges ↔ .exchange x ∈ a.deeds := by
  refine ⟨fun hx => ?_, fun hx => List.mem_filterMap.mpr ⟨_, hx, rfl⟩⟩
  obtain ⟨d, hd, hdx⟩ := List.mem_filterMap.mp hx
  cases d with
  | update w w' => cases hdx
  | exchange y => rwa [← Option.some.inj hdx]

end Account

/-- Procedures are followed just as they run. -/
def Passage.ofAccounts (respond : Call → Setting → Except Fault Reply × Setting) :
    Passage Account where
  world := Account.world
  update := fun f a => a.update f
  call := fun c a post => post (respond c a.setting).1 (a.exchange respond c)
  mono := fun hp h => hp _ _ h

@[simp]
theorem Passage.update_ofAccounts (respond : Call → Setting → Except Fault Reply × Setting)
    (f : World → World) (a : Account) : (Passage.ofAccounts respond).update f a = a.update f := rfl

namespace Procedure

variable {α β : Type}

/-- The deeds of a procedure in a setting. -/
def deeds (respond : Call → Setting → Except Fault Reply × Setting) :
    Procedure α → Setting → List Deed
  | done _, _ => []
  | fail _, _ => []
  | read next, s => (next s.world).deeds respond s
  | update f next, s =>
    .update s.world (f s.world) :: next.deeds respond { s with world := f s.world }
  | call c next, s =>
    let r := respond c s
    .exchange ⟨c, s, r.1, r.2⟩ :: (next r.1).deeds respond r.2

variable {respond : Call → Setting → Except Fault Reply × Setting}

/-- The second part of a sequence goes on from where the first has come to. -/
theorem deeds_bind_of_ok {p : Procedure α} {k : α → Procedure β} {s t : Setting} {x : α}
    (h : p.run respond s = (.ok x, t)) :
    (p >>= k).deeds respond s = p.deeds respond s ++ (k x).deeds respond t := by
  change (p.bind k).deeds respond s = _
  induction p generalizing s with
  | done y =>
    cases h
    rfl
  | fail f => cases h
  | read next ih => exact ih s.world h
  | update f next ih => exact congrArg _ (ih h)
  | call c next ih => exact congrArg _ (ih _ h)

theorem deeds_bind_of_error {p : Procedure α} {k : α → Procedure β} {s t : Setting} {f : Fault}
    (h : p.run respond s = (.error f, t)) : (p >>= k).deeds respond s = p.deeds respond s := by
  change (p.bind k).deeds respond s = _
  induction p generalizing s with
  | done y => cases h
  | fail g => rfl
  | read next ih => exact ih s.world h
  | update f next ih => exact congrArg _ (ih h)
  | call c next ih => exact congrArg _ (ih _ h)

/-- Following a procedure in an account is running it and adding its deeds. -/
theorem leads_accounts (p : Procedure α) (a : Account) (post : Except Fault α → Account → Prop) :
    p.Leads (.ofAccounts respond) a post ↔ post (p.run respond a.setting).1
      ⟨(p.run respond a.setting).2, a.deeds ++ p.deeds respond a.setting⟩ := by
  induction p generalizing a with
  | done x => simp [Leads, run, deeds]
  | fail f => simp [Leads, run, deeds]
  | read next ih => exact ih a.world a
  | update f next ih =>
    have hnext := ih (a.update f)
    rw [Account.update, List.append_assoc] at hnext
    exact hnext
  | call c next ih =>
    have hnext := ih (a.made respond c).result (a.exchange respond c)
    rw [Account.exchange, List.append_assoc] at hnext
    exact hnext

theorem leads_exchange (c : Call) {a : Account} {post : Except Fault Reply → Account → Prop} :
    (request c).Leads (.ofAccounts respond) a post ↔
      post (a.made respond c).result (a.exchange respond c) := leads_request c post

theorem leads_runs (p : Procedure α) (s : Setting) (post : Except Fault α → Account → Prop) :
    p.Leads (.ofAccounts respond) ⟨s, []⟩ post ↔
      post (p.run respond s).1 ⟨(p.run respond s).2, p.deeds respond s⟩ := by
  rw [leads_accounts, List.nil_append]

/-- Every procedure gives some value or none. -/
theorem yields_true (p : Procedure α) (a : Account) :
    p.Yields (.ofAccounts respond) a fun _ _ => True :=
  (leads_accounts p a _).mpr fun _ _ => trivial

theorem exchanges_deeds (p : Procedure α) (s u : Setting) :
    Account.exchanges ⟨u, p.deeds respond s⟩ = p.exchanges respond s := by
  unfold Account.exchanges
  induction p generalizing s with
  | done a => rfl
  | fail f => rfl
  | read next ih => exact ih s.world s
  | update f next ih => exact ih { s with world := f s.world }
  | call c next ih =>
    rw [deeds, exchanges, List.filterMap_cons]
    exact congrArg _ (ih (respond c s).1 (respond c s).2)

theorem run_bind_of_ok {p : Procedure α} (k : α → Procedure β) {s t : Setting} {x : α}
    (h : p.run respond s = (.ok x, t)) : (p >>= k).run respond s = (k x).run respond t := by
  rw [run_bind, h]

theorem run_bind_of_error {p : Procedure α} {k : α → Procedure β} {s t : Setting} {f : Fault}
    (h : p.run respond s = (.error f, t)) : (p >>= k).run respond s = (.error f, t) := by
  rw [run_bind, h]

theorem exchanges_bind_of_error {p : Procedure α} {k : α → Procedure β} {s t : Setting} {f : Fault}
    (h : p.run respond s = (.error f, t)) :
    (p >>= k).exchanges respond s = p.exchanges respond s := by
  rw [← exchanges_deeds _ s s, deeds_bind_of_error h, exchanges_deeds]

theorem exchanges_bind_of_ok {p : Procedure α} {k : α → Procedure β} {s t : Setting} {x : α}
    (h : p.run respond s = (.ok x, t)) :
    (p >>= k).exchanges respond s = p.exchanges respond s ++ (k x).exchanges respond t := by
  rw [← exchanges_deeds _ s s, deeds_bind_of_ok h, Account.exchanges, List.filterMap_append,
    ← exchanges_deeds _ s s, ← exchanges_deeds _ t t]
  rfl

theorem mem_exchanges_bind {p : Procedure α} (k : α → Procedure β) {s : Setting} {x : Exchange}
    (hx : x ∈ p.exchanges respond s) : x ∈ (p >>= k).exchanges respond s := by
  change x ∈ (p.bind k).exchanges respond s
  induction p generalizing s with
  | done a => cases hx
  | fail f => cases hx
  | read next ih => exact ih s.world hx
  | update f next ih => exact ih hx
  | call c next ih =>
    rcases List.mem_cons.mp hx with rfl | hx
    · exact List.mem_cons_self ..
    · exact List.mem_cons_of_mem _ (ih _ hx)

/-- What holds before the procedure holds after it, and a fault that it ends with is one of its own
there or comes of one of its calls. -/
def Traces (respond : Call → Setting → Except Fault Reply × Setting) (own : Account → Fault → Prop)
    (P : Account → Prop) (p : Procedure α) : Prop :=
  ∀ a, P a → p.Leads (.ofAccounts respond) a fun r a' =>
    P a' ∧ ∀ f, r = .error f → own a' f ∨ ∃ x ∈ a'.exchanges, x.result = .error f

variable {own : Account → Fault → Prop} {P : Account → Prop}

theorem Traces.mono {own' : Account → Fault → Prop} {p : Procedure α} (h : p.Traces respond own P)
    (hown : ∀ a f, own a f → own' a f) : p.Traces respond own' P :=
  fun a ha => (h a ha).mono fun _ a' hr => ⟨hr.1, fun f hf => (hr.2 f hf).imp_left (hown a' f)⟩

/-- A handler of some faults leaves those that the procedure may end with besides. -/
theorem traces_recover {test : Fault → Bool} {p : Procedure α} {h : Fault → Procedure α}
    (hp : p.Traces respond (fun a f => test f = true ∨ own a f) P)
    (hh : ∀ f, (h f).Traces respond own P) :
    (p.recover fun f => if test f then h f else fail f).Traces respond own P := by
  intro a ha
  rw [leads_recover]
  refine (hp a ha).mono fun r a' hr => ?_
  obtain ⟨ha', hown⟩ := hr
  cases r with
  | ok x => exact ⟨ha', by simp⟩
  | error f =>
    cases hf : test f with
    | true => simpa [onError, hf] using hh f a' ha'
    | false =>
      simp only [onError, hf]
      refine ⟨ha', fun g hg => ?_⟩
      rw [← Except.error.inj hg]
      simpa [hf] using hown f rfl

theorem traces_recoverOrdinary {p : Procedure α} {h : Fault → Procedure α}
    (hp : p.Traces respond (fun a f => f.isOrdinary = true ∨ own a f) P)
    (hh : ∀ f, (h f).Traces respond own P) : (p.recoverOrdinary h).Traces respond own P :=
  traces_recover hp hh

theorem traces_recoverOs {p : Procedure α} {h : Fault → Procedure α}
    (hp : p.Traces respond (fun a f => f.isOs = true ∨ own a f) P)
    (hh : ∀ f, (h f).Traces respond own P) : (p.recoverOs h).Traces respond own P :=
  traces_recover hp hh

theorem traces_compositional (respond : Call → Setting → Except Fault Reply × Setting)
    (own : Account → Fault → Prop) (P : Account → Prop) :
    Compositional fun p => p.Traces respond own P where
  bind := by
    intro α β p k hp hk a ha
    rw [leads_bind]
    refine (hp a ha).mono fun r a' h => ?_
    cases r with
    | ok x => exact hk x a' h.1
    | error f => exact ⟨h.1, fun g hg => h.2 g (by simpa using hg)⟩
  recoverOrdinary := fun hp hh => traces_recoverOrdinary (hp.mono fun _ _ => .inr) hh
  recoverOs := fun hp hh => traces_recoverOs (hp.mono fun _ _ => .inr) hh

theorem traces_request {c : Call} (hc : ∀ a, P a → P (a.exchange respond c)) :
    (request c).Traces respond own P := by
  intro a ha
  rw [leads_request]
  refine ⟨hc a ha, fun f hf => .inr ⟨a.made respond c, ?_, hf⟩⟩
  simp

theorem traces_pure (x : α) : (pure x : Procedure α).Traces respond own P :=
  fun _ ha => ⟨ha, by simp⟩

theorem traces_throw {f : Fault} (hf : ∀ a, own a f) :
    (throw f : Procedure α).Traces respond own P :=
  fun a ha => ⟨ha, fun g hg => .inl (by rw [← Except.error.inj hg]; exact hf a)⟩

theorem traces_change {f : World → World} (hf : ∀ a, P a → P (a.update f)) :
    (change f).Traces respond own P := fun a ha => ⟨hf a ha, by simp⟩

theorem traces_post {p : Posting} (hf : ∀ a, P a → P (a.update (·.post p)))
    (hrefused : ∀ a, P a → P (a.update (·.happen (.refused p))))
    (hown : ∀ (a : Account) f, a.world.refusal? p.record = some f →
      own (a.update (·.happen (.refused p))) f) :
    (post p).Traces respond own P := by
  intro a ha
  rw [leads_post]
  refine ⟨fun f hf' => ⟨hrefused a ha, fun g hg => .inl ?_⟩, fun _ => ⟨hf a ha, by simp⟩⟩
  rw [← Except.error.inj hg]
  exact hown a f hf'

end Procedure

end EditorClient

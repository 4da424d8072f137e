import EditorClient.Proofs.History
import EditorClient.Proofs.Ensures
import EditorClient.Proofs.IncidentalSteps

/-! Procedures that change no object and make calls of some sorts only. Those that ask nothing of a
session's client write to logs and talk to the user, run commands and open connections, and leave
everything else as it is. -/

namespace EditorClient

/-- Whether an event tells of a call on a session's client. -/
def Event.isFor (session : Nat) : Event → Bool
  | .called (.client i _) | .called (.setWriter i _) | .called (.readLoop i _) => i == session
  | _ => false

def Call.isPlain : Call → Bool
  | client .. | setWriter .. | readLoop .. => false
  | _ => true

def Event.isPlain : Event → Bool
  | .remarked _ | .posted _ | .refused _ | .askedLogDirectory => true
  | .called c => c.isPlain
  | _ => false

theorem Event.not_isFor_of_isPlain {e : Event} (h : e.isPlain = true) (session : Nat) :
    e.isFor session = false := by
  cases e with
  | called c => cases c <;> simp_all [isPlain, isFor, Call.isPlain]
  | _ => simp_all [isPlain, isFor]

theorem History.next_of_isPlain {e : Event} (h : e.isPlain = true) (hist : History) :
    hist.next e = hist := by
  cases e <;> simp_all [Event.isPlain, History.next]

/-- All objects are the same and only plain events have been added. -/
structure World.Alike (w w' : World) : Prop where
  contexts : w'.contexts = w.contexts
  bootstraps : w'.bootstraps = w.bootstraps
  controllers : w'.controllers = w.controllers
  sessionCalls : w'.sessionCalls = w.sessionCalls
  sessions : w'.sessions = w.sessions
  disposables : w'.disposables = w.disposables
  connections : w.connections ≤ w'.connections
  trace : ∃ es, w'.trace = w.trace ++ es ∧ ∀ e ∈ es, e.isPlain = true

namespace World.Alike

variable {w w' w'' : World}

theorem refl (w : World) : w.Alike w :=
  ⟨rfl, rfl, rfl, rfl, rfl, rfl, Nat.le_refl _, [], by simp, by simp⟩

theorem happen (w : World) {e : Event} (h : e.isPlain = true) : w.Alike (w.happen e) :=
  ⟨rfl, rfl, rfl, rfl, rfl, rfl, Nat.le_refl _, [e], rfl, by simpa using h⟩

theorem trans (h : w.Alike w') (h' : w'.Alike w'') : w.Alike w'' := by
  obtain ⟨es, he, hp⟩ := h.trace
  obtain ⟨es', he', hp'⟩ := h'.trace
  refine ⟨h'.contexts.trans h.contexts, h'.bootstraps.trans h.bootstraps,
    h'.controllers.trans h.controllers, h'.sessionCalls.trans h.sessionCalls,
    h'.sessions.trans h.sessions, h'.disposables.trans h.disposables,
    Nat.le_trans h.connections h'.connections, es ++ es', ?_, ?_⟩
  · rw [he', he, List.append_assoc]
  · intro e hmem
    rcases List.mem_append.mp hmem with hmem | hmem
    · exact hp e hmem
    · exact hp' e hmem

theorem history (h : w.Alike w') : w'.history = w.history := by
  obtain ⟨es, he, hp⟩ := h.trace
  unfold World.history History.ofTrace
  rw [he, List.foldl_append]
  generalize w.trace.foldl History.next History.empty = hist
  clear he
  induction es with
  | nil => rfl
  | cons e es ih =>
    rw [List.foldl_cons, History.next_of_isPlain (hp e (List.mem_cons_self ..))]
    exact ih fun x hx => hp x (List.mem_cons_of_mem _ hx)

theorem post (w : World) (p : Posting) : w.Alike (w.post p) := by
  have hwrite : w.Alike (w.write p.record) :=
    ⟨rfl, rfl, rfl, rfl, rfl, rfl, Nat.le_refl _, [], by simp [write], by simp⟩
  unfold World.post
  split
  · split
    · exact hwrite.trans (happen _ rfl)
    · exact hwrite
  · exact refl w

end World.Alike

namespace Procedure

variable {α β : Type}

/-- No update changes an object, and every call is of an allowed sort. -/
def Confined (allowed : Call → Bool) : Procedure α → Prop
  | done _ => True
  | fail _ => True
  | read next => ∀ w, (next w).Confined allowed
  | update f next => (∀ w, World.Alike w (f w)) ∧ next.Confined allowed
  | call c next => allowed c = true ∧ ∀ r, (next r).Confined allowed

/-- No update changes an object, and no call is one on a session's client. -/
abbrev Quiet (p : Procedure α) : Prop := p.Confined Call.isPlain

variable {allowed allowed' : Call → Bool}

theorem Confined.mono {p : Procedure α} (hp : p.Confined allowed)
    (h : ∀ c, allowed c = true → allowed' c = true) : p.Confined allowed' := by
  induction p with
  | done a => trivial
  | fail f => trivial
  | read next ih => exact fun w => ih w (hp w)
  | update f next ih => exact ⟨hp.1, ih hp.2⟩
  | call c next ih => exact ⟨h c hp.1, fun r => ih r (hp.2 r)⟩

/-- A quiet procedure ensures what all its small changes and its calls keep. -/
theorem Confined.ensures {p : Procedure α} (hp : p.Quiet) {inv : World → Prop}
    {rely : World → World → Prop} (halike : ∀ {w w'}, World.Alike w w' → rely w w')
    (htrans : ∀ {w w' w''}, rely w w' → rely w' w'' → rely w w'')
    (hinv : ∀ {w w'}, World.Alike w w' → inv w → inv w') {w : World} (hw : inv w) :
    p.Ensures inv rely w fun _ w' => inv w' ∧ rely w w' := by
  induction p generalizing w with
  | done a => exact ⟨hw, halike (.refl w)⟩
  | fail f => exact ⟨hw, halike (.refl w)⟩
  | read next ih => exact ih w (hp w) hw
  | update f next ih =>
    exact (ih hp.2 (hinv (hp.1 w) hw)).mono fun r w' h => ⟨h.1, htrans (halike (hp.1 w)) h.2⟩
  | call c next ih =>
    have hcalled : World.Alike w (w.happen (.called c)) := .happen w hp.1
    refine ⟨hinv hcalled hw, fun r w' hi hr => (ih r (hp.2 r) hi).mono fun r w'' h => ⟨h.1, ?_⟩⟩
    exact htrans (htrans (halike hcalled) hr) h.2

/-- A confined procedure maintains what small changes and the calls it may make maintain. -/
theorem Confined.maintains {σ : Type} {way : Passage σ} {P : σ → Prop} {p : Procedure α}
    (hp : p.Confined allowed)
    (hchange : ∀ s f, World.Alike (way.world s) (f (way.world s)) → P s → P (way.update f s))
    (hcall : ∀ c, allowed c = true → (request c).Maintains way P) : p.Maintains way P := by
  intro s hs
  induction p generalizing s with
  | done a => exact hs
  | fail f => exact hs
  | read next ih => exact ih _ (hp _) s hs
  | update f next ih => exact ih hp.2 _ (hchange s f (hp.1 _) hs)
  | call c next ih =>
    exact way.mono (fun r s' hs' => ih r (hp.2 r) s' hs') ((leads_request c _).mp (hcall c hp.1 s hs))

theorem Confined.bind {p : Procedure α} {k : α → Procedure β} (hp : p.Confined allowed)
    (hk : ∀ a, (k a).Confined allowed) : (p >>= k).Confined allowed := by
  change (p.bind k).Confined allowed
  induction p with
  | done a => exact hk a
  | fail f => trivial
  | read next ih => exact fun w => ih w (hp w)
  | update f next ih => exact ⟨hp.1, ih hp.2⟩
  | call c next ih => exact ⟨hp.1, fun r => ih r (hp.2 r)⟩

theorem Confined.recover {p : Procedure α} {h : Fault → Procedure α} (hp : p.Confined allowed)
    (hh : ∀ f, (h f).Confined allowed) : (p.recover h).Confined allowed := by
  induction p with
  | done a => trivial
  | fail f => exact hh f
  | read next ih => exact fun w => ih w (hp w)
  | update f next ih => exact ⟨hp.1, ih hp.2⟩
  | call c next ih => exact ⟨hp.1, fun r => ih r (hp.2 r)⟩

theorem Confined.recoverOs {p : Procedure α} {h : Fault → Procedure α} (hp : p.Confined allowed)
    (hh : ∀ f, (h f).Confined allowed) : (p.recoverOs h).Confined allowed :=
  hp.recover fun f => by
    split
    · exact hh f
    · trivial

@[simp]
theorem confined_pure (a : α) : (pure a : Procedure α).Confined allowed := trivial

@[simp]
theorem confined_throw (f : Fault) : (throw f : Procedure α).Confined allowed := trivial

@[simp]
theorem confined_ask (f : World → α) : (ask f).Confined allowed := fun _ => trivial

@[simp]
theorem confined_remark (r : Remark) : (remark r).Confined allowed :=
  ⟨fun w => .happen w rfl, trivial⟩

@[simp]
theorem confined_post (p : Posting) : (post p).Confined allowed := by
  intro w
  dsimp only
  split
  · exact ⟨fun w => .happen w rfl, trivial⟩
  · exact ⟨fun w => .post w p, trivial⟩

theorem confined_change {f : World → World} (h : ∀ w, World.Alike w (f w)) :
    (change f).Confined allowed := ⟨h, trivial⟩

theorem confined_request {c : Call} (h : allowed c = true) : (request c).Confined allowed :=
  ⟨h, fun r => by cases r <;> trivial⟩

@[simp]
theorem confined_ofExcept (r : Except Fault α) : (ofExcept r).Confined allowed := by
  cases r <;> trivial

@[simp]
theorem confined_find (sort : ObjectSort) (objects : World → List α) (i : Nat) :
    (find sort objects i).Confined allowed := by
  intro w
  dsimp only
  split <;> trivial

@[simp]
theorem confined_index (sort : ObjectSort) (objects : World → List α) (number : Int) :
    (index sort objects number).Confined allowed :=
  fun _ => confined_ofExcept _

end Procedure

open Procedure

variable {allowed : Call → Bool}

theorem confined_connect {host : String} {port : Int} (h : allowed (.connect host port) = true) :
    (connect host port).Confined allowed := by
  refine Confined.bind ?_ fun _ => ?_
  · exact (confined_request h).recoverOs fun _ => (confined_remark _).bind fun _ => confined_throw _
  · refine (confined_change fun w => ?_).bind fun _ =>
      (confined_ask _).bind fun _ => (confined_remark _).bind fun _ => confined_pure _
    exact ⟨rfl, rfl, rfl, rfl, rfl, rfl, Nat.le_succ _, [], by simp [countConnection],
      by simp⟩

theorem confined_makeLogDirectory : makeLogDirectory.Confined allowed := by
  refine Confined.bind ⟨fun w => .happen w rfl, trivial⟩ fun _ =>
    (confined_ask _).bind fun directory => ?_
  split
  · exact confined_pure _
  · exact confined_throw _

theorem confined_openChannel (name : String) : (openChannel name).Confined allowed := by
  refine (confined_ask _).bind fun known => ?_
  cases known with
  | true => exact confined_pure _
  | false =>
    refine Confined.bind (Confined.recoverOs ?_ fun _ => confined_remark _) fun _ => confined_pure _
    refine confined_makeLogDirectory.bind fun _ =>
      Confined.bind (confined_change fun w => ?_) fun _ =>
        Confined.bind (confined_change fun w => ?_) fun _ => confined_remark _
    · exact ⟨rfl, rfl, rfl, rfl, rfl, rfl, Nat.le_refl _, [], by simp [addHandler], by simp⟩
    · exact ⟨rfl, rfl, rfl, rfl, rfl, rfl, Nat.le_refl _, [], by simp [setLevel], by simp⟩

/-- The steps that are quiet whatever they are about. -/
def Step.isQuiet : Step → Bool
  | enquire _ | resolveMode .. | selectTransport .. | runCommand _ | isImportable .. | install ..
  | ensureDependency .. | connect .. | notify .. | extendScript _ | setLogDirectory _
  | logDirectory | openChannel _ | writeChannel .. | readLogs _ | configuration .. | newConfig _
  | newConfigFrom _ | handles .. | serverMessage .. | serverExit .. | serverError .. => true
  | _ => false

section Calls

variable (hnotice : ∀ n, allowed (.notify n) = true)

include hnotice in
theorem confined_notify (n : Notifier) (notice : Notice) : (n.notify notice).Confined allowed := by
  cases n with
  | host => exact (confined_request (hnotice notice)).bind fun _ => confined_pure ()
  | log logger => exact confined_post _
  | absent => exact confined_throw _

variable (hcommand : ∀ words, allowed (.process words) = true)
include hnotice hcommand

theorem confined_preparing : Preparing fun p => p.Confined allowed where
  bind := Confined.bind
  recover := Confined.recover
  recoverOs := Confined.recoverOs
  pure := confined_pure
  throw := confined_throw
  fail := fun f _ => confined_throw f
  remark := confined_remark
  post := confined_post
  find := confined_find
  notice := fun n => confined_request (hnotice n)
  command := fun words => confined_request (hcommand words)

theorem confined_incidental : Incidental fun p => p.Confined allowed where
  toPreparing := confined_preparing hnotice hcommand
  ask := confined_ask
  index := confined_index
  askDirectory := confined_change fun w => .happen w rfl
  addConfig := fun c => confined_change fun w =>
    ⟨rfl, rfl, rfl, rfl, rfl, rfl, Nat.le_refl _, [], by simp [Host.addConfig], by simp⟩

theorem confined_procedure (limit : Nat) {step : Step} (h : step.isQuiet = true)
    (hconnect : ∀ host port, step = .connect host port → allowed (.connect host port) = true) :
    (step.procedure limit).Confined allowed := by
  by_cases hincidental : step.isIncidental = true
  · exact (confined_incidental hnotice hcommand).procedure limit hincidental
  cases step with
  | connect host port =>
    exact (confined_connect (hconnect host port rfl)).bind fun _ => confined_pure _
  | setLogDirectory directory =>
    refine Confined.bind (confined_change fun w => ?_) fun _ => confined_pure _
    exact ⟨rfl, rfl, rfl, rfl, rfl, rfl, Nat.le_refl _, [], by simp [Host.setLogDirectory], by simp⟩
  | openChannel name =>
    exact (confined_openChannel _).bind fun _ => (confined_ask _).bind fun _ =>
      (confined_ask _).bind fun _ => confined_pure _
  | writeChannel name level text =>
    exact (confined_openChannel _).bind fun _ => (confined_post _).bind fun _ => confined_pure _
  | _ => first | exact absurd rfl hincidental | cases h

end Calls

theorem quiet_preparing : Preparing fun p => p.Quiet :=
  confined_preparing (fun _ => rfl) fun _ => rfl

theorem quiet_prepare (config : Config) (context : Context) (path : Path) :
    (Bootstrap.reporting (Bootstrap.prepare config context path)).Quiet :=
  quiet_preparing.reporting (quiet_preparing.prepare config context path)

theorem quiet_procedure (limit : Nat) {step : Step} (h : step.isQuiet = true) :
    (step.procedure limit).Quiet :=
  confined_procedure (fun _ => rfl) (fun _ => rfl) limit h fun _ _ _ => rfl

end EditorClient

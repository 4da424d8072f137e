import EditorClient.Proofs.Account

/-! An activation that goes wrong before it replaces anything. It has written logs, run commands and
shown notices, and nothing has changed; if its configuration is at fault, it has made remarks only. -/

namespace EditorClient

/-- What goes into logs, as far as they take it, what is run as a command, and what the user is shown. -/
def Event.isSpoken : Event → Bool
  | .remarked _ | .posted _ | .refused _ | .called (.process _) | .called (.notify _) => true
  | _ => false

def Event.isRemark : Event → Bool
  | .remarked _ => true
  | _ => false

theorem Event.isSpoken_of_isRemark {e : Event} (h : e.isRemark = true) : e.isSpoken = true := by
  cases e <;> simp_all [isRemark, isSpoken]

/-- Nothing but the trace and the log files has changed, and all that has happened is of one sort. -/
def World.Logs (sort : Event → Bool) (w w' : World) : Prop :=
  ∃ es files, w' = { w with trace := w.trace ++ es, files := files } ∧ ∀ e ∈ es, sort e = true

namespace World.Logs

variable {sort sort' : Event → Bool} {w w' w'' : World}

theorem refl (sort : Event → Bool) (w : World) : w.Logs sort w := ⟨[], w.files, by simp, by simp⟩

theorem happen (w : World) {e : Event} (h : sort e = true) : w.Logs sort (w.happen e) :=
  ⟨[e], w.files, rfl, by simpa using h⟩

theorem trans (h : w.Logs sort w') (h' : w'.Logs sort w'') : w.Logs sort w'' := by
  obtain ⟨es, files, rfl, hes⟩ := h
  obtain ⟨es', files', rfl, hes'⟩ := h'
  refine ⟨es ++ es', files', by rw [List.append_assoc], fun e he => ?_⟩
  rcases List.mem_append.mp he with he | he
  · exact hes e he
  · exact hes' e he

theorem mono (h : w.Logs sort w') (hs : ∀ e, sort e = true → sort' e = true) :
    w.Logs sort' w' := by
  obtain ⟨es, files, hw, hes⟩ := h
  exact ⟨es, files, hw, fun e he => hs e (hes e he)⟩

theorem post (w : World) {p : Posting} (h : sort (.posted p) = true) : w.Logs sort (w.post p) := by
  have hwrite : w.Logs sort (w.write p.record) := ⟨[], _, by rw [List.append_nil]; rfl, by simp⟩
  unfold World.post
  split
  · split
    · exact hwrite.trans (happen _ h)
    · exact hwrite
  · exact refl sort w

end World.Logs

namespace Script

def IsFlat (script : Script) (queue : Queue) : Prop := ∀ r ∈ script queue, r.steps = []

/-- No step is taken while a command runs or a notice is shown. -/
structure Undistracted (script : Script) : Prop where
  process : script.IsFlat .process
  notify : ∀ severity, script.IsFlat (.notify severity)

variable {script : Script} {queue : Queue}

theorem IsFlat.next (h : script.IsFlat queue) : (script.next queue).steps = [] := by
  unfold Script.next
  cases hq : script queue with
  | nil => rfl
  | cons r rs => exact h r (by rw [hq]; exact List.mem_cons_self)

theorem IsFlat.rest (h : script.IsFlat queue) (other : Queue) :
    (script.rest other).IsFlat queue := by
  intro r hr
  simp only [Script.rest] at hr
  split at hr
  · exact h r (List.mem_of_mem_tail hr)
  · exact h r hr

theorem Undistracted.rest (h : script.Undistracted) (queue : Queue) :
    (script.rest queue).Undistracted :=
  ⟨h.process.rest queue, fun severity => (h.notify severity).rest queue⟩

end Script

/-- What a call leaves during which no step is taken. -/
theorem Call.respond_of_flat (take : Step → Setting → Setting) {c : Call} {queue : Queue} {s : Setting}
    (hc : c.react s.script = (s.script.next queue, s.script.rest queue))
    (h : s.script.IsFlat queue) :
    (c.respond take s).2 = ⟨s.world.happen (.called c), s.script.rest queue⟩ := by
  rw [respond_snd, noted, hc, h.next]
  rfl

open Procedure

namespace Account

/-- Since this world, only things of one sort have happened, and no calls will bring others. -/
def Spoken (sort : Event → Bool) (w₀ : World) (a : Account) : Prop :=
  w₀.Logs sort a.world ∧ a.setting.script.Undistracted

/-- If the configuration turned out to be at fault, remarks are all that there was. -/
def Aborted {α : Type} (w₀ : World) (r : Except Fault α) (a : Account) : Prop :=
  a.Spoken Event.isSpoken w₀ ∧ ∀ f, r = .error f → f.kind.isA .configuration = true →
    a.Spoken Event.isRemark w₀ ∨ ∃ x ∈ a.exchanges, x.result = .error f

variable {sort : Event → Bool} {w₀ : World} {a : Account}

theorem Spoken.update (h : a.Spoken sort w₀) {f : World → World}
    (hf : a.world.Logs sort (f a.world)) : (a.update f).Spoken sort w₀ := ⟨h.1.trans hf, h.2⟩

theorem Spoken.remark (h : a.Spoken sort w₀) {r : Remark} (hr : sort (.remarked r) = true) :
    (a.update (·.remark r)).Spoken sort w₀ := h.update (.happen _ hr)

theorem Spoken.exchange {take : Step → Setting → Setting} {c : Call} (queue : Queue)
    (h : a.Spoken sort w₀) (hc : ∀ script, c.react script = (script.next queue, script.rest queue))
    (hflat : a.setting.script.IsFlat queue) (hsort : sort (.called c) = true) :
    (a.exchange (Call.respond take) c).Spoken sort w₀ := by
  have hafter := Call.respond_of_flat take (hc _) hflat
  refine ⟨?_, ?_⟩
  · rw [world_exchange, hafter]
    exact h.1.trans (.happen _ hsort)
  · change (Call.respond take c a.setting).2.script.Undistracted
    rw [hafter]
    exact h.2.rest queue

theorem Spoken.weaken (h : a.Spoken Event.isRemark w₀) : a.Spoken Event.isSpoken w₀ :=
  ⟨h.1.mono fun _ => Event.isSpoken_of_isRemark, h.2⟩

theorem Spoken.aborted {α : Type} {r : Except Fault α} (h : a.Spoken Event.isRemark w₀) :
    a.Aborted w₀ r := ⟨h.weaken, fun _ _ _ => .inl h⟩

end Account

open Account

variable {take : Step → Setting → Setting} {w₀ : World}

/-- After remarks only, the procedure has gone wrong as described if it has gone wrong. -/
def Procedure.Aborts (take : Step → Setting → Setting) (w₀ : World) {α : Type} (p : Procedure α) :
    Prop :=
  ∀ a, a.Spoken Event.isRemark w₀ →
    p.Leads (.ofAccounts (Call.respond take)) a fun r a' => a'.Aborted w₀ r

namespace Procedure

variable {α β : Type}

theorem Aborts.bind {p : Procedure α} {k : α → Procedure β}
    (hp : p.Maintains (.ofAccounts (Call.respond take)) (Spoken Event.isRemark w₀))
    (hk : ∀ x, (k x).Aborts take w₀) : (p >>= k).Aborts take w₀ :=
  fun _ ha => hp.leads_bind (fun _ _ h => h.aborted) hk ha

theorem Aborts.bind_pure {p : Procedure α} (hp : p.Aborts take w₀) (k : α → β) :
    (p >>= fun x => pure (k x)).Aborts take w₀ := by
  intro a ha
  rw [leads_bind]
  refine (hp a ha).mono fun r a' h => ?_
  cases r with
  | ok x => exact ⟨h.1, by simp⟩
  | error f => exact ⟨h.1, fun g hg => h.2 g (congrArg _ (Except.error.inj hg))⟩

theorem Aborts.of_maintains {p : Procedure α}
    (hp : p.Maintains (.ofAccounts (Call.respond take)) (Spoken Event.isRemark w₀)) :
    p.Aborts take w₀ := fun a ha => (hp a ha).mono fun _ _ h => h.aborted

end Procedure

theorem remarking_spoken (take : Step → Setting → Setting) (w₀ : World) :
    Remarking fun p => p.Maintains (.ofAccounts (Call.respond take))
      (Spoken Event.isRemark w₀) where
  bind := (maintains_compositional _ _).bind
  pure := fun _ _ h => h
  throw := fun _ _ h => h
  remark := fun _ _ h => h.remark rfl

theorem checking_spoken (take : Step → Setting → Setting) (w₀ : World) :
    Checking fun p => p.Traces (Call.respond take) (fun _ f => f.kind.isA .configuration = false)
      (Spoken Event.isSpoken w₀) where
  bind := (traces_compositional _ _ _).bind
  recoverOs := (traces_compositional _ _ _).recoverOs
  pure := traces_pure
  fail := fun _ hf => traces_throw fun _ => hf
  remark := fun _ => traces_change fun _ h => h.remark rfl
  post := fun _ => traces_post (fun _ h => h.update (.post _ rfl))
    (fun _ h => h.update (.happen _ rfl))
    fun _ _ hf => FaultKind.not_configuration_of_isOs (World.isOs_of_refusal hf)
  notice := fun n => traces_request fun _ h =>
    h.exchange (.notify n.severity) (fun _ => rfl) (h.2.notify _) rfl
  command := fun _ => traces_request fun _ h =>
    h.exchange .process (fun _ => rfl) h.2.process rfl

namespace Bootstrap

theorem aborts_ensureDependency (program module : String) (notifier : Notifier)
    (transport : Transport) :
    (do
      let _ ← ensureDependency program module notifier
      Procedure.remark .dependenciesReady
      pure transport : Procedure Transport).Aborts take w₀ := by
  have hchecking := checking_spoken take w₀
  intro a ha
  refine (hchecking.bind (hchecking.ensureDependency program module notifier) (fun _ =>
    hchecking.bind (hchecking.remark _) fun _ => hchecking.pure _) a ha.weaken).mono
    fun r a' h => ⟨h.1, fun f hf hconfig => ?_⟩
  rcases h.2 f hf with hown | hcall
  · rw [hown] at hconfig
    cases hconfig
  · exact .inr hcall

theorem aborts_prepare (config : Config) (context : Context) (path : Path) :
    (prepare config context path).Aborts take w₀ := by
  have hremarking := remarking_spoken take w₀
  refine Aborts.bind (hremarking.resolveMode _ _) fun mode =>
    Aborts.bind (hremarking.remark _) fun _ => ?_
  cases mode with
  | development => exact .of_maintains (hremarking.selectTransport _ _ _ _ _)
  | production =>
    exact Aborts.bind (hremarking.ofExcept _) fun _ => Aborts.bind (hremarking.remark _) fun _ =>
      Aborts.bind (hremarking.selectTransport _ _ _ _ _) fun _ =>
        Aborts.bind (hremarking.ofExcept _) fun _ => aborts_ensureDependency _ _ _ _

theorem aborts_reporting {p : Procedure Transport} (hp : p.Aborts take w₀) :
    (reporting p).Aborts take w₀ := by
  refine fun a ha => leads_reporting (hp a ha) fun f a' h => ⟨h.1.remark rfl, fun g hg hconfig => ?_⟩
  rcases h.2 g hg hconfig with hremarks | ⟨x, hx, hf⟩
  · exact .inl (hremarks.remark rfl)
  · exact .inr ⟨x, by simpa using hx, hf⟩

theorem aborts_preparation (take : Step → Setting → Setting) (i context : Nat) :
    (preparation i context).Aborts take w₀ := by
  refine Aborts.bind (maintains_find _ _ _) fun b => Aborts.bind (maintains_find _ _ _) fun c => ?_
  split
  · exact .of_maintains ((remarking_spoken take w₀).throw _)
  · exact Aborts.bind ((remarking_spoken take w₀).remark _) fun _ =>
      (aborts_reporting (aborts_prepare _ _ _)).bind_pure _

/-- An activation that goes wrong before it replaces anything ends there. If no step is taken while it
runs commands and shows notices, then nothing has changed; and if it found the configuration to be at
fault, then it has run no command and shown no notice. -/
theorem activate_of_unprepared {s t : Setting} {i context : Nat} {f : Fault}
    (hscript : s.script.Undistracted)
    (hfault : (preparation i context).run (Call.respond take) s = (.error f, t)) :
    (activate i context).run (Call.respond take) s = (.error f, t) ∧
      s.world.Logs Event.isSpoken t.world ∧
      (f.kind.isA .configuration = true →
        (∀ x ∈ (activate i context).exchanges (Call.respond take) s, x.result ≠ .error f) →
          s.world.Logs Event.isRemark t.world) := by
  have hspoken : Account.Spoken Event.isRemark s.world ⟨s, []⟩ := ⟨.refl _ _, hscript⟩
  have haborted := (leads_runs _ _ _).mp (aborts_preparation take i context _ hspoken)
  rw [hfault] at haborted
  refine ⟨?_, haborted.1.1, fun hconfig hown => ?_⟩
  · rw [activate_eq, run_bind, hfault]
  · rcases haborted.2 f rfl hconfig with hremarks | ⟨x, hx, hf⟩
    · exact hremarks.1
    · refine absurd hf (hown x ?_)
      rwa [← exchanges_deeds _ _ t, activate_eq, deeds_bind_of_error hfault]

/-- A session of the bootstrap runs, and there is a context without an interpreter. -/
def runningSetting : Setting :=
  Step.leaveAll 9 9
    [.newContext (.path ⟨.none, []⟩) (.member (.text "development")) .null .host, .newBootstrap none,
      .activate 1 1,
      .newContext (.path ⟨.none, []⟩) (.member (.text "production")) (.object []) .host]
    (.unlogged .empty)

theorem activate_of_interpreter_unset :
    let r := (activate 0 1).run (Call.respond (Step.leave 9 9)) runningSetting
    runningSetting.script.Undistracted ∧ r.1 = .error (.badConfiguration .interpreterNotSet) ∧
      runningSetting.world.Logs Event.isRemark r.2.world ∧
      r.2.world.sessions.map Session.isRunning = [true] := by
  intro r
  have hscript : runningSetting.script.Undistracted := by
    constructor
    · intro r hr
      cases hr
    · intro severity r hr
      cases hr
  have hfault : (preparation 0 1).run (Call.respond (Step.leave 9 9)) runningSetting =
      (.error (.badConfiguration .interpreterNotSet), r.2) := Prod.ext rfl rfl
  have hcalls : (activate 0 1).exchanges (Call.respond (Step.leave 9 9)) runningSetting = [] := rfl
  obtain ⟨hrun, _, hremarks⟩ := activate_of_unprepared hscript hfault
  refine ⟨hscript, congrArg Prod.fst hrun, hremarks rfl ?_, by decide +kernel⟩
  rw [hcalls]
  exact List.forall_mem_nil _

end Bootstrap

end EditorClient

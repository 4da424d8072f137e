import EditorClient.Proofs.NestedSteps

/-! The check of a dependency runs commands. Nothing about a command matters but whether it succeeded: not
its exit code, nor its output, nor why it could not be launched. What sets two activations apart whose
commands fare alike are remarks of a low level. -/

namespace EditorClient

open Procedure

/-- Whether a command succeeded, unless a fault that is not the operating system's ended it. -/
def Reaction.verdict (r : Reaction) : Except Fault Bool :=
  match r.fault with
  | none => .ok (r.exitCode == 0)
  | some f => if f.isOs then .ok false else .error f

/-- Remarks of a lower level than information are not loud. -/
def Event.isLoud : Event → Bool
  | remarked r => Level.info ≤ r.record.level
  | _ => true

/-- Commands that take no steps and fare alike one by one. -/
structure Fare (l l' : List Reaction) : Prop where
  flat : ∀ r ∈ l, r.steps = []
  flat' : ∀ r ∈ l', r.steps = []
  verdict : ∀ n, (l.getD n .plain).verdict = (l'.getD n .plain).verdict

namespace Fare

variable {l l' : List Reaction}

theorem headD (h : Fare l l') : (l.headD .plain).verdict = (l'.headD .plain).verdict := by
  have hzero := h.verdict 0
  rwa [List.getD_eq_getElem?_getD, List.getD_eq_getElem?_getD, ← List.head?_eq_getElem?,
    ← List.head?_eq_getElem?, ← List.headD_eq_head?_getD, ← List.headD_eq_head?_getD] at hzero

theorem tail (h : Fare l l') : Fare l.tail l'.tail where
  flat := fun r hr => h.flat r (List.mem_of_mem_tail hr)
  flat' := fun r hr => h.flat' r (List.mem_of_mem_tail hr)
  verdict := fun n => by
    have hsucc := h.verdict (n + 1)
    simp only [List.getD_eq_getElem?_getD, List.getElem?_tail] at hsucc ⊢
    exact hsucc

end Fare

/-- What is remarked upon a command that has ended. -/
def Reaction.murmurs (interpreter : String) (r : Reaction) : List Event :=
  match r.fault with
  | none =>
    (if r.output.isEmpty then []
      else [.remarked (.commandOutput (String.ofList (trimEnd isBlank (readUtf8 r.output))))]) ++
      [.remarked (.commandExited interpreter r.exitCode)]
  | some f => if f.isOs then [.remarked (.notLaunched interpreter f)] else []

theorem Reaction.filter_murmurs (interpreter : String) (r : Reaction) :
    (r.murmurs interpreter).filter Event.isLoud = [] := by
  unfold murmurs
  split
  · split
    · rfl
    · rfl
  · split
    · rfl
    · rfl

/-- A call during which no step is taken comes to what the reaction says. -/
theorem Call.respond_eq_of_flat (take : Step → Setting → Setting) {c : Call} {queue : Queue}
    {s : Setting} (hc : c.react s.script = (s.script.next queue, s.script.rest queue))
    (h : s.script.IsFlat queue) :
    c.respond take s =
      (match (s.script.next queue).fault with
        | some f => .error f
        | none => .ok ⟨(s.script.next queue).exitCode, (s.script.next queue).output⟩,
        ⟨s.world.happen (.called c), s.script.rest queue⟩) := by
  refine Prod.ext ?_ (respond_of_flat take hc h)
  simp only [respond, hc]
  cases (s.script.next queue).fault with
  | none => rfl
  | some f => rfl

/-- A command during which no step is taken comes to its verdict. -/
theorem run_succeeds (take : Step → Setting → Setting) (interpreter : String) (args : List String)
    {s : Setting} (h : s.script.IsFlat .process) :
    (succeeds interpreter args).run (Call.respond take) s =
      ((s.script.next .process).verdict,
        ⟨{ s.world with
            trace := s.world.trace ++
              ([.remarked (.commandStarted (interpreter :: args)),
                .called (.process (interpreter :: args))] ++
              (s.script.next .process).murmurs interpreter) },
          s.script.rest .process⟩) := by
  have hcall := Call.respond_eq_of_flat take (c := .process (interpreter :: args))
    (s := { s with world := s.world.remark (.commandStarted (interpreter :: args)) }) rfl h
  have htrace : ∀ es, s.world.trace ++ ([.remarked (.commandStarted (interpreter :: args)),
      .called (.process (interpreter :: args))] ++ es) =
        s.world.trace ++ [.remarked (.commandStarted (interpreter :: args))] ++
          [.called (.process (interpreter :: args))] ++ es := fun es => by simp
  rw [htrace]
  unfold succeeds recoverOs runCommand Reaction.verdict Reaction.murmurs
  simp only [run_recover, run_bind, Procedure.remark, change, run, run_request, hcall]
  cases hf : (s.script.next .process).fault with
  | none =>
    cases houtput : (s.script.next .process).output.isEmpty with
    | true =>
      simp only [houtput]
      rfl
    | false =>
      simp only [houtput, Bool.false_eq_true, if_false, ← List.append_assoc]
      rfl
  | some f =>
    cases hos : f.isOs with
    | true =>
      simp only [hos]
      rfl
    | false =>
      simp only [hos, Bool.false_eq_true, if_false, List.append_nil]
      rfl

/-- Two runs during which no step is taken and commands fare alike. -/
def verdictContrast : Contrast where
  steps := fun _ _ => False
  actions := Eq
  commands := Fare
  traces := fun t u => t.filter Event.isLoud = u.filter Event.isLoud
  traces_snoc := fun h he => by
    rw [Event.eq_of_meets (fun _ _ => False.elim) he, List.filter_append, List.filter_append, h]

section Verdict

variable {take : Step → Setting → Setting}

theorem keeps_verdict (limit depth : Nat) : verdictContrast.Keeps (Step.leave limit depth) :=
  ⟨Contrast.remembers_leave limit depth, fun _ _ _ _ => False.elim⟩

theorem blind_succeeds (interpreter : String) (args : List String) :
    verdictContrast.Blind take (succeeds interpreter args) := by
  intro s t hst _ _
  have hfare : Fare (s.script .process) (t.script .process) := hst.script.process
  rw [run_succeeds take interpreter args hfare.flat, run_succeeds take interpreter args hfare.flat']
  refine ⟨corresponds_eq.mpr hfare.headD, { hst.world with trace := ?_ }, fun q hq => ?_, ?_⟩
  · have htrace : s.world.trace.filter Event.isLoud = t.world.trace.filter Event.isLoud :=
      hst.world.trace
    change List.filter _ _ = List.filter _ _
    simp only [List.filter_append, htrace, Reaction.filter_murmurs]
  · simp only [Script.rest, if_neg hq]
    exact hst.script.queue q hq
  · exact hfare.tail

theorem blind_ensureDependency (hupheld : verdictContrast.Upheld take) (interpreter module : String)
    (notifier : Notifier) : verdictContrast.Blind take (ensureDependency interpreter module notifier) := by
  refine (blind_succeeds interpreter _).bind_eq fun present => ?_
  cases present with
  | true => exact (Contrast.blind_remark _).bind_eq fun _ => parallel_pure rfl
  | false =>
    refine (Contrast.blind_remark _).bind_eq fun _ => (hupheld.notify notifier _).bind_eq fun _ =>
      (blind_succeeds interpreter _).bind_eq fun installed => ?_
    cases installed with
    | true =>
      exact (Contrast.blind_remark _).bind_eq fun _ => (hupheld.notify notifier _).bind_eq fun _ =>
        parallel_pure rfl
    | false =>
      exact (Contrast.blind_remark _).bind_eq fun _ => (hupheld.notify notifier _).bind_eq fun _ =>
        parallel_throw _

theorem blind_activation (hupheld : verdictContrast.Upheld take) (limit : Nat)
    (bootstrap context : Int) :
    verdictContrast.Blind take ((Step.activate bootstrap context).procedure limit) := by
  refine hupheld.activation limit fun i c b x _ _ _ _ => ?_
  refine Contrast.Upheld.parallel_arrange_of_eq (blind_ensureDependency hupheld) ?_
  rw [Contrast.bootstrapAt_eq_self fun _ => rfl, Contrast.contextAt_eq_self fun _ => rfl]

end Verdict

/-- Scripts of the same reactions, commands apart. -/
theorem scripts_verdict {script script' : Script} (hflat : ∀ q, script.IsFlat q)
    (hscript : ∀ q, q ≠ .process → script q = script' q)
    (hfare : Fare (script .process) (script' .process)) : verdictContrast.Scripts script script' where
  queue := fun q hq => by
    rw [← hscript q hq]
    refine List.forall₂_same.mpr fun r hr => ⟨?_, rfl, rfl, rfl⟩
    rw [hflat q r hr]
    exact .nil
  process := hfare

theorem worlds_verdict (w : World) : verdictContrast.Worlds w w := by
  have hdisposables : ∀ d ∈ w.disposables, Disposable.Meets Eq d d := fun d _ => ⟨by
    cases d.action with
    | scripted name reaction => exact .scripted name rfl
    | stopController controller => exact .stopController controller, rfl⟩
  refine .of_eq ?_ (.inl ⟨fun _ => rfl, fun _ => trivial⟩) (.inl ⟨fun _ => rfl, fun _ => trivial⟩)
    (List.forall₂_same.mpr hdisposables) rfl rfl
  rw [show verdictContrast.refit = id from rfl, show verdictContrast.reset = id from rfl,
    List.modify_id, List.modify_id]

namespace Bootstrap

/-- Two activations during which no step is taken, and whose commands one by one either both succeed or
both fail, by an exit code or by a fault of the operating system, answer the same and leave all alike. The
traces differ in remarks of a low level only. -/
theorem activate_of_fare {script script' : Script} (hflat : ∀ q, script.IsFlat q)
    (hscript : ∀ q, q ≠ .process → script q = script' q)
    (hfare : Fare (script .process) (script' .process)) (limit depth : Nat) (bootstrap context : Int)
    (w : World) :
    let first := (Step.activate bootstrap context).perform limit depth ⟨w, script⟩
    let second := (Step.activate bootstrap context).perform limit depth ⟨w, script'⟩
    first.1 = second.1 ∧
      second.2.world = { first.2.world with trace := second.2.world.trace } ∧
      first.2.world.trace.filter Event.isLoud = second.2.world.trace.filter Event.isLoud ∧
      (∀ q, q ≠ .process → first.2.script q = second.2.script q) ∧
      Fare (first.2.script .process) (second.2.script .process) := by
  intro first second
  have hst : verdictContrast.Settings ⟨w, script⟩ ⟨w, script'⟩ :=
    ⟨worlds_verdict w, scripts_verdict hflat hscript hfare⟩
  have hsame : first.1 = second.1 ∧ verdictContrast.Settings first.2 second.2 := by
    cases depth with
    | zero => exact ⟨rfl, hst⟩
    | succ depth =>
      exact hst.perform rfl rfl (.same _)
        (blind_activation ((keeps_verdict limit depth).upheld rfl) limit bootstrap context) trivial trivial
  obtain ⟨hanswer, hworld, hafter⟩ := hsame
  refine ⟨hanswer, ?_, hworld.trace, fun q hq => hafter.eq (fun _ _ => False.elim) hq, hafter.process⟩
  refine (hworld.eq (fun _ _ => id) rfl).trans ?_
  rw [show verdictContrast.refit = id from rfl, show verdictContrast.reset = id from rfl,
    List.modify_id, List.modify_id]

/-- A context in production. -/
def spawningSetting : Setting :=
  Step.leaveAll 9 9
    [.newContext (.path ⟨.none, []⟩) (.member (.text "production"))
      (.object [("python", .object [("pythonPath", .text "py")])]) .host, .newBootstrap none]
    (.unlogged .empty)

/-- The first command fails with an output that is no text, or cannot be launched; the second, which
installs the dependency, succeeds with or without an output. -/
theorem activate_of_unlaunched :
    let script := Script.empty.append .process [.mk [] none 1 [0xff], .plain]
    let script' := Script.empty.append .process
      [.mk [] (some (.raised .fileNotFound "py")) 0 [], .mk [] none 0 [0x6f, 0x6b]]
    let first := (Step.activate 1 1).perform 9 9 ⟨spawningSetting.world, script⟩
    let second := (Step.activate 1 1).perform 9 9 ⟨spawningSetting.world, script'⟩
    first.1.isOk = true ∧ first.1 = second.1 ∧
      second.2.world = { first.2.world with trace := second.2.world.trace } ∧
      first.2.world.trace.filter Event.isLoud = second.2.world.trace.filter Event.isLoud := by
  intro script script' first second
  have hflat : ∀ q, script.IsFlat q ∧ script'.IsFlat q := fun q => by
    cases q <;> simp [script, script', Script.IsFlat, Script.append, Script.empty, Reaction.plain,
      Reaction.steps]
  have hfare : Fare (script .process) (script' .process) := by
    refine ⟨(hflat .process).1, (hflat .process).2, fun n => ?_⟩
    rcases n with _ | _ | n
    · rfl
    · rfl
    · rfl
  obtain ⟨hanswer, hworld, hloud, _⟩ := activate_of_fare (fun q => (hflat q).1)
    (fun q hq => by simp [script, script', Script.append, hq]) hfare 9 9 1 1 spawningSetting.world
  exact ⟨by decide +kernel, hanswer, hworld, hloud⟩

end Bootstrap

end EditorClient

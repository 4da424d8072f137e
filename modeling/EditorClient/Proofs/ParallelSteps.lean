import EditorClient.Proofs.Account
import EditorClient.Proofs.ParallelOperations
import EditorClient.Proofs.StepEvolution

/-! Steps in two runs that a contrast sets apart, with all that is nested in them. Most steps take no
notice of any contrast; the others are those that run commands, look at the logs or at how a context
is fitted, activate, or bring reactions of their own. -/

namespace EditorClient

open Procedure

namespace Step

def isExtension : Step → Bool
  | extendScript _ => true
  | _ => false

def runsCommand : Step → Bool
  | runCommand .. | isImportable .. | install .. | ensureDependency .. => true
  | _ => false

def isLogging : Step → Bool
  | setLogDirectory _ | logDirectory | openChannel _ | readLogs _ => true
  | _ => false

def isDisposal : Step → Bool
  | dispose _ | disposeAt .. | disposeContext _ => true
  | _ => false

/-- Whether a step depends on how a context is fitted. -/
def isFitted : Step → Bool
  | configuration .. | activate .. => true
  | _ => false

/-- Whether a step brings reactions of its own. -/
def isReactive : Step → Bool
  | subscribe .. | extendScript _ => true
  | _ => false

/-- Whether a step depends on nothing that a contrast sets apart. -/
def isImpartial (step : Step) : Bool :=
  !(step.runsCommand || step.isLogging || step.isDisposal || step.isFitted || step.isReactive)

theorem perform_of_not_isExtension {step : Step} (h : step.isExtension = false) (limit depth : Nat)
    (s : Setting) :
    step.perform limit (depth + 1) s =
      ((step.course limit depth s).1,
        (step.course limit depth s).2.happen (.ended (step.course limit depth s).1)) := by
  unfold perform
  split
  · cases h
  · rfl

/-- An activation of what is there arranges a transport and replaces what there was before. -/
theorem perform_activate {s : Setting} {i c : Nat} {b : Bootstrap} {x : Context}
    (hb : s.world.bootstraps[i]? = some b) (hx : s.world.contexts[c]? = some x) (limit depth : Nat) :
    let r := (do
      let transport ← Bootstrap.arrange b.config x
      Bootstrap.succession i c (b.config, x, transport)).run (Call.respond (leave limit depth))
        (s.happen (.began (.activate (i + 1) (c + 1))))
    (Step.activate (i + 1) (c + 1)).perform limit (depth + 1) s =
      (r.1.map .activated, r.2.happen (.ended (r.1.map .activated))) := by
  intro r
  let began := s.happen (.began (.activate (i + 1) (c + 1)))
  have hb' : began.world.bootstraps[i]? = some b := hb
  have hx' : began.world.contexts[c]? = some x := hx
  have hcourse : (Step.activate (i + 1) (c + 1)).course limit depth s =
      (r.1.map .activated, r.2) := by
    simp only [course, procedure, Host.bootstrapIndex, Host.contextIndex,
      Bootstrap.activate_eq_arrange, Bootstrap.find, Context.find, LawfulMonad.bind_assoc]
    rw [run_bind_of_ok _ (run_index (List.getElem?_eq_some_iff.mp hb').1),
      run_bind_of_ok _ (run_index (List.getElem?_eq_some_iff.mp hx').1),
      run_bind_of_ok _ (run_find hb'), run_bind_of_ok _ (run_find hx'), ← LawfulMonad.bind_assoc,
      run_bind_pure]
  rw [perform_of_not_isExtension rfl, hcourse]

end Step

structure Addition.Meets (steps : Step → Step → Prop) (a a' : Queue × List Reaction) : Prop where
  queue : a.1 = a'.1
  reactions : List.Forall₂ (Reaction.Meets steps) a.2 a'.2

namespace Contrast

variable {κ : Contrast} {take : Step → Setting → Setting}

theorem blind_contextIndex (number : Int) : κ.Blind take (Host.contextIndex number) :=
  blind_index number fun _ _ hst => hst.world.length_contexts

theorem blind_bootstrapIndex (number : Int) : κ.Blind take (Host.bootstrapIndex number) :=
  blind_index number fun _ _ hst => hst.world.length_bootstraps

theorem blind_controllerIndex (number : Int) : κ.Blind take (Host.controllerIndex number) :=
  blind_index number fun _ _ hst => (congrArg List.length hst.world.controllers).symm

theorem blind_sessionIndex (number : Int) : κ.Blind take (Host.sessionIndex number) :=
  blind_index number fun _ _ hst => (congrArg List.length hst.world.sessions).symm

theorem blind_answerNothing {p : Procedure Unit} (hp : κ.Blind take p) :
    κ.Blind take (Host.answerNothing p) := hp.bind_eq fun _ => parallel_pure rfl

theorem blind_keepConfig (checked : Except ConfigurationProblem Config) :
    κ.Blind take (Host.keepConfig checked) := by
  cases checked with
  | ok c => exact Parallel.bind_eq (blind_change fun hw => hw.addConfig c) fun _ => parallel_pure rfl
  | error problem => exact parallel_throw _

theorem blind_configOf (number : Option Int) : κ.Blind take (Host.configOf number) := by
  cases number with
  | none => exact parallel_pure rfl
  | some number =>
    exact Parallel.bind_eq (blind_index number fun _ _ hst =>
      (congrArg List.length hst.world.configs).symm) fun _ => blind_find (·.configs)

theorem blind_subscribedIndex (number : Int) : κ.Blind take (Host.subscribedIndex number) :=
  Parallel.bind_eq (blind_index number fun _ _ hst =>
    (congrArg List.length hst.world.subscribed).symm) fun _ => blind_find (·.subscribed)

/-- The subscriptions of a context are the same in both runs. -/
theorem parallel_subscriptions (i : Nat) :
    κ.Parallel take (fun x y => y.subscriptions = x.subscriptions) (Context.find i) (Context.find i) :=
  Parallel.mono (parallel_findContext i) fun x y h => by rw [h.1, contextAt_subscriptions]

theorem blind_subscriptionAt (i : Nat) (place : Int) :
    κ.Blind take (Host.subscriptionAt i place) := by
  refine (parallel_subscriptions i).bind fun x y hxy => ?_
  dsimp only
  rw [hxy]
  split
  · exact parallel_pure rfl
  · exact parallel_throw _

namespace Upheld

variable (h : κ.Upheld take)
include h

/-- A scripted action brings its own reaction, in each run one that corresponds. -/
theorem parallel_act (hactions : ∀ {r r'}, κ.actions r r' → r.Meets κ.steps r') {a a' : CleanUp}
    (ha : a.Meets κ.actions a') :
    κ.Parallel take Eq (Disposable.act a) (Disposable.act a') := by
  cases ha with
  | scripted name hr =>
    exact (h.keeps.parallel_act name (hactions hr)).bind_eq fun _ => parallel_pure rfl
  | stopController controller => exact h.stopController controller

omit h in
theorem parallel_findDisposable (i : Nat) :
    κ.Parallel take (Disposable.Meets κ.actions) (Disposable.find i) (Disposable.find i) :=
  parallel_find fun s t hst => by
    have hd := hst.world.disposables
    by_cases hi : i < s.world.disposables.length
    · have hi' := hd.length_eq ▸ hi
      rw [List.getElem?_eq_getElem hi, List.getElem?_eq_getElem hi']
      exact .some (hd.get hi hi')
    · rw [List.getElem?_eq_none (Nat.le_of_not_lt hi),
        List.getElem?_eq_none (Nat.le_of_not_lt (hd.length_eq ▸ hi))]
      exact .none

theorem disposeDisposable (hactions : ∀ {r r'}, κ.actions r r' → r.Meets κ.steps r') (i : Nat) :
    κ.Blind take (Disposable.dispose i) := by
  refine (parallel_findDisposable i).bind fun d d' hd => ?_
  rw [hd.disposed]
  split
  · exact parallel_pure rfl
  · exact Parallel.bind_eq (blind_change fun hw => hw.markDisposed i) fun _ =>
      h.parallel_act hactions hd.action

theorem disposeOne (hactions : ∀ {r r'}, κ.actions r r' → r.Meets κ.steps r') (i : Nat) :
    κ.Blind take (Host.disposeOne i) :=
  (h.disposeDisposable hactions i).bind_eq fun _ => (parallel_findDisposable i).bind fun _ _ hd =>
    parallel_pure (by rw [hd.disposed])

theorem disposeContext (hactions : ∀ {r r'}, κ.actions r r' → r.Meets κ.steps r') (limit i : Nat) :
    κ.Blind take (Context.dispose limit i) := by
  induction limit with
  | zero =>
    unfold Context.dispose
    refine (parallel_subscriptions i).bind fun x y hxy => ?_
    rw [hxy]
    split
    · exact parallel_pure rfl
    · exact parallel_throw _
  | succ limit ih =>
    unfold Context.dispose
    refine (parallel_subscriptions i).bind fun x y hxy => ?_
    rw [hxy]
    split
    · exact parallel_pure rfl
    · refine Parallel.bind_eq (blind_change fun hw => hw.modifySubscriptions i List.dropLast) fun _ => ?_
      exact Parallel.bind_eq ((h.disposeDisposable hactions _).recoverIf fun _ => blind_remark _)
        fun _ => ih

omit h in
theorem handles (i : Nat) (uri language : String) : κ.Blind take (Session.handles i uri language) := by
  refine (blind_findSession i).bind_eq fun x => ?_
  split
  · exact parallel_pure rfl
  · exact parallel_throw _

theorem changeFile (i : Nat) (path : Path) (change : Int) :
    κ.Blind take (Session.changeFile i path change) := by
  refine (blind_findSession i).bind_eq fun x => (blind_ofExcept _).bind_eq fun watched => ?_
  split
  · split
    · exact Parallel.bind_eq (blind_ask (·.workingDirectory)) fun _ =>
        (blind_ofExcept _).bind_eq fun _ => (h.requestClient i _).bind_eq fun _ => parallel_pure rfl
    · exact (blind_remark _).bind_eq fun _ => parallel_pure rfl
  · exact parallel_pure rfl

/-! The steps. -/

theorem impartial (limit : Nat) {step : Step} (hstep : step.isImpartial = true) :
    κ.Blind take (step.procedure limit) := by
  cases step with
  | enquire e => exact blind_ofExcept _
  | resolveMode choice debugClient =>
    exact (blind_ofExcept _).bind_eq fun mode =>
      ((remarking κ take).resolveMode _ _).bind_eq fun _ => parallel_pure rfl
  | selectTransport v port extension interpreter server =>
    refine Parallel.bind_eq ?_ fun mode =>
      ((remarking κ take).selectTransport _ _ _ _ _).bind_eq fun _ => parallel_pure rfl
    unfold Host.modeOf
    split
    · exact parallel_pure rfl
    · exact parallel_throw _
  | connect host port => exact (h.connect host port).bind_eq fun _ => parallel_pure rfl
  | notify notifier notice => exact blind_answerNothing (h.notify notifier notice)
  | writeChannel name level text =>
    exact (h.openChannel name).bind_eq fun _ => blind_answerNothing (h.post _)
  | newContext path choice settings notifier =>
    exact (blind_ofExcept _).bind_eq fun mode =>
      Parallel.bind_eq (blind_change fun hw => hw.addContext _) fun _ => parallel_pure rfl
  | newConfig c => exact blind_keepConfig _
  | newConfigFrom env => exact blind_keepConfig _
  | newBootstrap number =>
    exact (blind_configOf number).bind_eq fun _ =>
      Parallel.bind_eq (blind_change fun hw => hw.addBootstrap _) fun _ => parallel_pure rfl
  | deactivate bootstrap =>
    exact (blind_bootstrapIndex _).bind_eq fun i => blind_answerNothing (h.deactivate i)
  | newController notifier => exact (newController notifier).bind_eq fun _ => parallel_pure rfl
  | startController controller session context =>
    exact (blind_controllerIndex _).bind_eq fun i => (blind_sessionIndex _).bind_eq fun s =>
      (blind_contextIndex _).bind_eq fun c => (h.startController i s c).bind_eq fun _ =>
        parallel_pure rfl
  | stopController controller =>
    exact (blind_controllerIndex _).bind_eq fun i => blind_answerNothing (h.stopController i)
  | buildSession transport options =>
    exact (h.buildSession transport options).bind_eq fun i =>
      (blind_findSession i).bind_eq fun _ => parallel_pure rfl
  | newSession name transport options =>
    exact (h.newSession name transport options).bind_eq fun i =>
      (blind_findSession i).bind_eq fun _ => parallel_pure rfl
  | startSession session =>
    exact (blind_sessionIndex _).bind_eq fun i => blind_answerNothing (h.startSession i)
  | stopSession session =>
    exact (blind_sessionIndex _).bind_eq fun i => blind_answerNothing (h.stopSession i)
  | handles session uri language =>
    exact (blind_sessionIndex _).bind_eq fun i =>
      (handles i uri language).bind_eq fun _ => parallel_pure rfl
  | changeFile session path change =>
    rw [Step.procedure]
    split
    · exact (blind_sessionIndex _).bind_eq fun i =>
        (h.changeFile i path change).bind_eq fun _ => parallel_pure rfl
    · exact parallel_throw _
  | serverMessage session severity text =>
    exact (blind_sessionIndex _).bind_eq fun i => blind_answerNothing <|
      (blind_findSession i).bind_eq fun _ => h.post _
  | serverExit session process code =>
    exact (blind_sessionIndex _).bind_eq fun i => blind_answerNothing <|
      (blind_findSession i).bind_eq fun _ => h.post _
  | serverError session fault source =>
    exact (blind_sessionIndex _).bind_eq fun i => blind_answerNothing <|
      (blind_findSession i).bind_eq fun _ => h.post _
  | _ => cases hstep

/-- With the same log files, handlers and log directory, what is asked about logs is answered alike. -/
theorem logging (limit : Nat) (hlogs : κ.logs = Eq) {step : Step} (hstep : step.isLogging = true) :
    κ.Blind take (step.procedure limit) := by
  cases step with
  | setLogDirectory directory =>
    refine blind_answerNothing (blind_change fun hw => { hw with logs := ?_ })
    rw [hlogs]
    exact congrArg (fun l : LogState =>
      LogState.mk l.handlers l.levels l.files directory (l.directory :: l.formerDirectories))
        (hw.logState_eq hlogs).symm
  | logDirectory => exact (blind_makeLogDirectory hlogs).bind_eq fun _ => parallel_pure rfl
  | openChannel name =>
    refine (h.openChannel name).bind_eq fun slug => Parallel.bind_eq (blind_ask fun hw => ?_) fun _ =>
      Parallel.bind_eq (blind_ask fun hw => ?_) fun _ => parallel_pure rfl
    · exact congrArg (fun l : LogState => (l.handlers.filter fun x => x.slug == slug).length)
        (hw.logState_eq hlogs)
    · exact congrArg (fun l : LogState => (l.levels.lookup (Logger.channel slug)).getD Level.unset)
        (hw.logState_eq hlogs)
  | readLogs directory =>
    refine Parallel.bind_eq (blind_ask fun hw => ?_) fun _ => parallel_pure rfl
    exact congrArg (fun l : LogState => (l.files.filter fun f => f.handler.directory == directory).map
      fun f => (f.handler.fileName, f.text)) (hw.logState_eq hlogs)
  | _ => cases hstep

theorem disposal (limit : Nat) (hactions : ∀ {r r'}, κ.actions r r' → r.Meets κ.steps r')
    {step : Step} (hstep : step.isDisposal = true) : κ.Blind take (step.procedure limit) := by
  cases step with
  | dispose number =>
    exact (blind_subscribedIndex number).bind_eq fun i => h.disposeOne hactions i
  | disposeAt context place =>
    exact (blind_contextIndex context).bind_eq fun c =>
      (blind_subscriptionAt c place).bind_eq fun i => h.disposeOne hactions i
  | disposeContext context =>
    exact (blind_contextIndex context).bind_eq fun i =>
      blind_answerNothing (h.disposeContext hactions limit i)
  | _ => cases hstep

/-- What is true of remarks, notices and commands is true of the check of a dependency. -/
theorem checking (hprocess : ∀ words, κ.Blind take (request (.process words))) :
    Checking fun p => κ.Blind take p where
  bind := (blind_compositional _ _ _).bind
  recoverOs := (blind_compositional _ _ _).recoverOs
  pure := fun _ => parallel_pure rfl
  fail := fun f _ => parallel_throw f
  remark := blind_remark
  post := h.post
  notice := fun n => h.keeps.blind_request (q := .notify n.severity) nofun fun _ => rfl
  command := hprocess

theorem command (limit : Nat) (hprocess : ∀ words, κ.Blind take (request (.process words)))
    {step : Step} (hstep : step.runsCommand = true) : κ.Blind take (step.procedure limit) := by
  have hchecking := h.checking hprocess
  cases step with
  | runCommand command =>
    exact (blind_ofExcept _).bind_eq fun words =>
      (hchecking.runCommand words).bind_eq fun _ => parallel_pure rfl
  | isImportable interpreter module =>
    exact (blind_ofExcept _).bind_eq fun program =>
      (hchecking.succeeds program _).bind_eq fun _ => parallel_pure rfl
  | install interpreter module =>
    exact (blind_ofExcept _).bind_eq fun program =>
      (hchecking.succeeds program _).bind_eq fun _ => parallel_pure rfl
  | ensureDependency interpreter module notifier =>
    exact (blind_ofExcept _).bind_eq fun program =>
      (hchecking.ensureDependency program module notifier).bind_eq fun _ => parallel_pure rfl
  | _ => cases hstep

omit h in
theorem configuration (limit : Nat) {context : Int} (heading : String)
    (hsame : ∀ (c : Nat) x, context = c + 1 → (κ.context = c → κ.fitted x.fitting) →
      (κ.contextAt c x).configuration heading = x.configuration heading) :
    κ.Blind take ((Step.configuration context heading).procedure limit) := by
  refine (parallel_index context fun _ _ hst => hst.world.length_contexts).bind fun c _ ⟨rfl, hc⟩ =>
    (parallel_findContext c).bind fun x y ⟨hy, hfitted⟩ => ?_
  rw [hy, hsame c x hc hfitted]
  exact (blind_ofExcept _).bind_eq fun _ => parallel_pure rfl

theorem activation (limit : Nat) {bootstrap context : Int}
    (harrange : ∀ (i c : Nat) b x, bootstrap = i + 1 → context = c + 1 →
      (κ.bootstrap = i → κ.debugging b.config.debugClient) →
      (κ.context = c → κ.fitted x.fitting) →
      κ.Parallel take Eq (Bootstrap.arrange b.config x)
        (Bootstrap.arrange (κ.bootstrapAt i b).config (κ.contextAt c x))) :
    κ.Blind take ((Step.activate bootstrap context).procedure limit) :=
  (parallel_index bootstrap fun _ _ hst => hst.world.length_bootstraps).bind fun i _ ⟨rfl, hi⟩ =>
    (parallel_index context fun _ _ hst => hst.world.length_contexts).bind fun c _ ⟨rfl, hc⟩ =>
      (h.activate (harrange i c · · hi hc)).bind_eq fun _ => parallel_pure rfl

/-- A step that brings no reactions takes no notice of the contrast if that is so where the contrast
might matter. -/
theorem procedure (limit : Nat) {step : Step} (hstep : step.isReactive = false)
    (hactions : ∀ {r r'}, κ.actions r r' → r.Meets κ.steps r')
    (hcommand : step.runsCommand = true → ∀ words, κ.Blind take (request (.process words)))
    (hlogging : step.isLogging = true → κ.Blind take (step.procedure limit))
    (hfitted : step.isFitted = true → κ.Blind take (step.procedure limit)) :
    κ.Blind take (step.procedure limit) := by
  by_cases hc : step.runsCommand = true
  · exact h.command limit (hcommand hc) hc
  by_cases hl : step.isLogging = true
  · exact hlogging hl
  by_cases hd : step.isDisposal = true
  · exact h.disposal limit hactions hd
  by_cases hf : step.isFitted = true
  · exact hfitted hf
  · exact h.impartial limit (by simp_all [Step.isImpartial])

end Upheld

theorem parallel_subscribe (name : String) {r r' : Reaction} (hr : κ.actions r r')
    (context : Option Int) : κ.Parallel take Eq
      (Host.subscribe (.scripted name r) context) (Host.subscribe (.scripted name r') context) := by
  refine Parallel.bind_eq (blind_ask fun hw => hw.length_disposables.symm) fun d =>
    Parallel.bind_eq (parallel_change fun _ _ hst => hst.change (·.addDisposable (.scripted name hr)))
      fun _ => Parallel.bind_eq (blind_change (·.numberDisposable d)) fun _ => ?_
  cases context with
  | none => exact parallel_pure rfl
  | some number =>
    exact (blind_contextIndex number).bind_eq fun i =>
      Parallel.bind_eq (blind_change (·.register i d)) fun _ => parallel_pure rfl

/-- How two steps may correspond. -/
inductive Pairs (κ : Contrast) (plain : Step → Step → Prop) : Step → Step → Prop
  | plain {step step' : Step} (h : plain step step') : Pairs κ plain step step'
  | subscribe (name : String) (context : Option Int) {r r' : Reaction} (h : κ.actions r r') :
    Pairs κ plain (.subscribe name r context) (.subscribe name r' context)
  | extendScript {l l' : List (Queue × List Reaction)}
    (h : List.Forall₂ (Addition.Meets κ.steps) l l') :
    Pairs κ plain (.extendScript l) (.extendScript l')

/-- Nested steps correspond step by step, and so do the reactions that they bring. -/
structure Nests (κ : Contrast) (plain : Step → Step → Prop) : Prop where
  pairs : ∀ {step step'}, κ.steps step step' → κ.Pairs plain step step'
  commands : ∀ {l l' m m'}, κ.commands l l' → List.Forall₂ (Reaction.Meets κ.steps) m m' →
    κ.commands (l ++ m) (l' ++ m')

theorem Nests.extend {plain : Step → Step → Prop} (h : κ.Nests plain)
    {l l' : List (Queue × List Reaction)} (hl : List.Forall₂ (Addition.Meets κ.steps) l l')
    {s t : Script} (hst : κ.Scripts s t) : κ.Scripts (s.extend l) (t.extend l') := by
  unfold Script.extend
  induction hl generalizing s t with
  | nil => exact hst
  | cons ha _ ih =>
    refine ih ⟨fun q hq => ?_, ?_⟩
    · simp only [Script.append, ← ha.queue]
      split
      · exact List.rel_append (hst.queue q hq) ha.reactions
      · exact hst.queue q hq
    · simp only [Script.append, ← ha.queue]
      split
      · exact h.commands hst.process ha.reactions
      · exact hst.process

theorem remembers_leave (limit depth : Nat) (step : Step) (s : Setting) :
    s.world.trace <+: (step.leave limit depth s).world.trace :=
  (Step.meanwhile_leaveAll limit depth [step] s).evolves.trace

/-- Steps that begin in settings that correspond, and whose procedures run in parallel. -/
theorem Settings.perform {limit depth : Nat} {step step' : Step} (hstep : step.isExtension = false)
    (hstep' : step'.isExtension = false)
    (hbegan : Event.Meets κ.steps (.began step) (.began step'))
    (hp : κ.Parallel (Step.leave limit depth) Eq (step.procedure limit) (step'.procedure limit))
    {s t : Setting} (hst : κ.Settings s t)
    (hs : κ.InBounds (step.perform limit (depth + 1) s).2.world)
    (ht : κ.InBounds (step'.perform limit (depth + 1) t).2.world) :
    (step.perform limit (depth + 1) s).1 = (step'.perform limit (depth + 1) t).1 ∧
      κ.Settings (step.perform limit (depth + 1) s).2 (step'.perform limit (depth + 1) t).2 := by
  have hbegin : κ.Settings (s.happen (.began step)) (t.happen (.began step')) :=
    ⟨hst.world.happen hbegan, hst.script⟩
  have hstays : ∀ {step : Step} {s : Setting}, step.isExtension = false →
      κ.InBounds (step.perform limit (depth + 1) s).2.world →
        (step.procedure limit).Stays (Call.respond (Step.leave limit depth)) κ.InBounds
          (s.happen (.began step)) := by
    intro step s hstep hs
    rw [Step.perform_of_not_isExtension hstep] at hs
    exact (step.remembers_procedure limit).stays
      (fun c s => (List.prefix_append _ _).trans (Step.meanwhile_respond limit depth c s).evolves.trace)
      (fun _ _ hpre h => h.mono hpre) (hs.mono (List.prefix_append _ _))
  obtain ⟨hr, hafter⟩ := hp _ _ hbegin (hstays hstep hs) (hstays hstep' ht)
  rw [corresponds_eq] at hr
  rw [Step.perform_of_not_isExtension hstep, Step.perform_of_not_isExtension hstep']
  have hanswer : (step.course limit depth s).1 = (step'.course limit depth t).1 := hr
  rw [hanswer]
  exact ⟨rfl, hafter.world.happen (.same _), hafter.script⟩

/-- Steps that correspond come to the same, with all that is nested in them. The induction is on how
deep steps may be nested. -/
theorem Nests.perform {plain : Step → Step → Prop} (h : κ.Nests plain) {limit : Nat}
    (hproper : ∀ {step step'}, plain step step' →
      step.isExtension = false ∧ step'.isExtension = false)
    (hplain : ∀ depth {step step'}, κ.Keeps (Step.leave limit depth) → plain step step' →
      κ.Parallel (Step.leave limit depth) Eq (step.procedure limit) (step'.procedure limit))
    (depth : Nat) {step step' : Step} (hstep : κ.steps step step') {s t : Setting}
    (hst : κ.Settings s t) (hs : κ.InBounds (step.perform limit depth s).2.world)
    (ht : κ.InBounds (step'.perform limit depth t).2.world) :
    (step.perform limit depth s).1 = (step'.perform limit depth t).1 ∧
      κ.Settings (step.perform limit depth s).2 (step'.perform limit depth t).2 := by
  induction depth generalizing step step' s t with
  | zero => exact ⟨rfl, hst⟩
  | succ depth ih =>
    have hbegan : Event.Meets κ.steps (.began step) (.began step') := .began hstep
    cases h.pairs hstep with
    | plain hp =>
      have hkeeps : κ.Keeps (Step.leave limit depth) := ⟨remembers_leave limit depth,
        fun _ _ _ _ hstep hst hs ht => (ih hstep hst hs ht).2⟩
      exact hst.perform (hproper hp).1 (hproper hp).2 hbegan (hplain depth hkeeps hp) hs ht
    | subscribe name context hr =>
      exact hst.perform rfl rfl hbegan (parallel_subscribe name hr context) hs ht
    | extendScript hl =>
      exact ⟨rfl, (hst.world.happen hbegan).happen (.same _), h.extend hl hst.script⟩

end Contrast

end EditorClient

import EditorClient.Proofs.NestedSteps

/-! Runs that differ in where logs can be kept, from one moment to the next. The client does the same in
both, as long as the logs take all that is written to them. -/

namespace EditorClient

open Procedure

/-- A directory that is refused is so by the operating system. -/
def LogDirectory.IsTolerable (d : LogDirectory) : Prop :=
  ∀ fault, d.refusal = some fault → fault.isOs = true

theorem LogDirectory.isTolerable_usable (path : String) : (usable path).IsTolerable := nofun

/-- Loggers have the level of debugging if they have any, so that all channels take the same records. -/
structure LogState.IsSound (l : LogState) : Prop where
  levels : ∀ p ∈ l.levels, p.2 = Level.debug
  directory : l.directory.IsTolerable

def Event.isRefusal : Event → Bool
  | refused _ => true
  | _ => false

/-- No log has refused a record so far. -/
def World.Recorded (w : World) : Prop := ∀ e ∈ w.trace, e.isRefusal = false

instance (w : World) : Decidable w.Recorded := inferInstanceAs (Decidable (∀ e ∈ w.trace, _))

/-- What is said and asked about the files of channels. -/
def Event.isFiling : Event → Bool
  | askedLogDirectory => true
  | remarked (.channelFile ..) => true
  | remarked (.channelWithoutFile ..) => true
  | _ => false

/-- A step that does not ask about logs, or one that changes the log directory, to any in either run. -/
inductive Step.RefilesPlainly : Step → Step → Prop
  | same {step : Step} (hreactive : step.isReactive = false) (hlogging : step.isLogging = false) :
    RefilesPlainly step step
  | setLogDirectory {d d' : LogDirectory} (hd : d.IsTolerable) (hd' : d'.IsTolerable) :
    RefilesPlainly (.setLogDirectory d) (.setLogDirectory d')

mutual

/-- The same steps, also during calls, but for the log directories that they set. -/
inductive Step.Refiles : Step → Step → Prop
  | plain {step step' : Step} (h : step.RefilesPlainly step') : Step.Refiles step step'
  | subscribe (name : String) (context : Option Int) {r r' : Reaction} (h : Reaction.Refiles r r') :
    Step.Refiles (.subscribe name r context) (.subscribe name r' context)
  | extendScript {l l' : List (Queue × List Reaction)} (h : List.Forall₂ Reaction.AddsRefiled l l') :
    Step.Refiles (.extendScript l) (.extendScript l')

inductive Reaction.Refiles : Reaction → Reaction → Prop
  | mk {steps steps' : List Step} (h : List.Forall₂ Step.Refiles steps steps') (fault : Option Fault)
    (exitCode : Int) (output : List UInt8) :
    Reaction.Refiles (.mk steps fault exitCode output) (.mk steps' fault exitCode output)

inductive Reaction.AddsRefiled : Queue × List Reaction → Queue × List Reaction → Prop
  | mk (queue : Queue) {l l' : List Reaction} (h : List.Forall₂ Reaction.Refiles l l') :
    Reaction.AddsRefiled (queue, l) (queue, l')

end

theorem Reaction.Refiles.meets {r r' : Reaction} (h : r.Refiles r') : r.Meets Step.Refiles r' := by
  cases h with
  | mk h fault exitCode output => exact ⟨h, rfl, rfl, rfl⟩

theorem Event.isFiling_of_meets {steps : Step → Step → Prop} {e f : Event} (h : e.Meets steps f) :
    e.isFiling = f.isFiling := by
  cases h with
  | same => rfl
  | began => rfl
  | called => rfl

/-- Two runs with two histories of the log directory, until a log refuses a record. -/
def logContrast : Contrast where
  steps := Step.Refiles
  actions := Reaction.Refiles
  commands := List.Forall₂ (Reaction.Meets Step.Refiles)
  logs := fun l l' => l.IsSound ∧ l'.IsSound
  traces := fun t u =>
    List.Forall₂ (Event.Meets Step.Refiles) (t.filter (!·.isFiling)) (u.filter (!·.isFiling))
  bounds := fun t => ∀ e ∈ t, e.isRefusal = false
  bounds_prefix := fun hpre h e he => h e (hpre.subset he)
  traces_snoc := by
    intro t u e f h he
    have hfiling := Event.isFiling_of_meets he
    rw [List.filter_append, List.filter_append]
    refine List.rel_append h ?_
    simp only [List.filter_cons, hfiling, List.filter_nil]
    split
    · exact .cons he .nil
    · exact .nil

theorem World.level_of_isSound {w : World} (h : w.logState.IsSound) (logger : String) :
    w.level logger = Level.unset ∨ w.level logger = Level.debug := by
  unfold level
  cases hfound : w.levels.lookup logger with
  | none => exact .inl rfl
  | some n =>
    obtain ⟨before, after, hlevels, _⟩ := List.lookup_eq_some_iff.mp hfound
    have hmem : (logger, n) ∈ w.logState.levels := by
      change (logger, n) ∈ w.levels
      rw [hlevels]
      exact List.mem_append_right _ List.mem_cons_self
    exact .inr (h.levels _ hmem)

/-- Whether a record is written does not depend on which channels have files. -/
theorem World.emits_of_isSound {w : World} (h : w.logState.IsSound) (r : LogRecord) :
    w.emits r = decide (Level.debug ≤ r.level) := by
  have hthreshold : w.threshold r.logger = Level.debug := by
    unfold threshold
    cases hfound : ((Logger.upwards r.logger).map w.level).find? fun n => n != Level.unset with
    | none => rfl
    | some n =>
      obtain ⟨logger, _, hn⟩ := List.mem_map.mp (List.mem_of_find?_eq_some hfound)
      have hset : n ≠ Level.unset := by simpa using List.find?_some hfound
      exact hn.symm.trans ((World.level_of_isSound h logger).resolve_left (hn ▸ hset))
  rw [emits, hthreshold]

/-- What opening a channel may change: handlers are added and levels of debugging, and things are said
about files. -/
inductive World.Filed (v : World) : World → Prop
  | mk (handlers : List FileHandler) (levels : List (String × Int)) (trace : List Event)
    (hlevels : ∀ p ∈ levels, p.2 = Level.debug)
    (htrace : trace.filter (!·.isFiling) = v.trace.filter (!·.isFiling)) :
    Filed v { v with handlers := handlers, levels := levels, trace := trace }

namespace World.Filed

variable {v w : World}

theorem refl (h : v.logState.IsSound) : v.Filed v := ⟨v.handlers, v.levels, v.trace, h.levels, rfl⟩

theorem happen (h : v.Filed w) {e : Event} (he : e.isFiling = true) : v.Filed (w.happen e) := by
  obtain ⟨handlers, levels, trace, hlevels, htrace⟩ := h
  refine ⟨handlers, levels, trace ++ [e], hlevels, ?_⟩
  rw [List.filter_append, htrace]
  simp [he]

theorem attach (h : v.Filed w) (x : FileHandler) (logger : String) :
    v.Filed (setLevel logger Level.debug (addHandler x w)) := by
  obtain ⟨handlers, levels, trace, hlevels, htrace⟩ := h
  exact ⟨handlers ++ [x], (logger, Level.debug) :: levels, trace,
    List.forall_mem_cons.mpr ⟨rfl, hlevels⟩, htrace⟩

end World.Filed

theorem run_makeLogDirectory (respond : Call → Setting → Except Fault Reply × Setting) (s : Setting) :
    makeLogDirectory.run respond s =
      (match s.world.logDirectory.refusal with
        | none => .ok s.world.logDirectory.path
        | some fault => .error fault, s.happen .askedLogDirectory) := by
  simp only [makeLogDirectory, Procedure.happen, change, ask, run_bind, run]
  change run respond (match s.world.logDirectory.refusal with
    | none => pure s.world.logDirectory.path
    | some fault => throw fault) (s.happen .askedLogDirectory) = _
  cases s.world.logDirectory.refusal with
  | none => rfl
  | some fault => rfl

/-- A channel can be opened whether or not there is a directory for its file. -/
theorem run_openChannel (respond : Call → Setting → Except Fault Reply × Setting) (name : String)
    {s : Setting} (hs : s.world.logState.IsSound) :
    ∃ w, (openChannel name).run respond s = (.ok (channelSlug name), { s with world := w }) ∧
      s.world.Filed w := by
  have hasked : s.world.Filed (s.world.happen .askedLogDirectory) := (World.Filed.refl hs).happen rfl
  have hdirectory : s.world.logDirectory.IsTolerable := hs.directory
  unfold openChannel
  simp only [ask, run_bind, run]
  split
  · exact ⟨s.world, rfl, .refl hs⟩
  · simp only [attachFile, recoverOs, run_bind, run_recover, run_makeLogDirectory]
    cases hd : s.world.logDirectory.refusal with
    | none =>
      let handler : FileHandler := ⟨channelSlug name, s.world.logDirectory.path⟩
      exact ⟨_, rfl, (hasked.attach handler (Logger.channel (channelSlug name))).happen
        (e := .remarked (.channelFile name handler.file)) rfl⟩
    | some fault =>
      have hos : fault.isOs = true := hdirectory fault hd
      simp only [hos, if_true]
      exact ⟨_, rfl, hasked.happen (e := .remarked (.channelWithoutFile name fault)) rfl⟩

section Log

variable {take : Step → Setting → Setting}

/-- Both runs may file what they like. -/
theorem Contrast.Worlds.filed {v v' w w' : World} (h : logContrast.Worlds v w) (hv : v.Filed v')
    (hw : w.Filed w') : logContrast.Worlds v' w' := by
  obtain ⟨handlers, levels, trace, hlevels, htrace⟩ := hv
  obtain ⟨handlers', levels', trace', hlevels', htrace'⟩ := hw
  refine { h with logs := ⟨⟨hlevels, h.logs.1.directory⟩, ⟨hlevels', h.logs.2.directory⟩⟩, trace := ?_ }
  change List.Forall₂ _ (trace.filter _) (trace'.filter _)
  rw [htrace, htrace']
  exact h.trace

theorem upheld_log (h : logContrast.Keeps take) : logContrast.Upheld take where
  keeps := h
  post := fun p s t hst hs ht => by
    have hnone : ∀ {s : Setting}, (Procedure.post p).Stays (Call.respond take) logContrast.InBounds s →
        s.world.refusal? p.record = none := by
      intro s hs
      cases hrefusal : s.world.refusal? p.record with
      | none => rfl
      | some fault =>
        simp only [Procedure.post, Stays, hrefusal] at hs
        have hrefused := hs.1 (.refused p) (List.mem_append_right _ List.mem_cons_self)
        cases hrefused
    have hemits : t.world.emits p.record = s.world.emits p.record := by
      rw [World.emits_of_isSound hst.world.logs.1, World.emits_of_isSound hst.world.logs.2]
    simp only [Procedure.post, run, hnone hs, hnone ht]
    exact ⟨.ok rfl, hst.change fun hw => hw.post hemits { hw with
      logs := ⟨⟨hw.logs.1.levels, hw.logs.1.directory⟩, ⟨hw.logs.2.levels, hw.logs.2.directory⟩⟩ }⟩
  openChannel := fun name s t hst _ _ => by
    obtain ⟨v, hv, hfiled⟩ := run_openChannel (Call.respond take) name hst.world.logs.1
    obtain ⟨w, hw, hfiled'⟩ := run_openChannel (Call.respond take) name hst.world.logs.2
    rw [hv, hw]
    exact ⟨.ok rfl, hst.world.filed hfiled hfiled', hst.script⟩

theorem nests_log : logContrast.Nests Step.RefilesPlainly where
  commands := fun h hm => List.rel_append h hm
  pairs := by
    intro step step' h
    cases h with
    | plain h => exact .plain h
    | subscribe name context h => exact .subscribe name context h
    | extendScript h =>
      refine .extendScript (h.imp fun a a' ha => ?_)
      obtain ⟨queue, hl⟩ := ha
      exact ⟨rfl, hl.imp fun _ _ => Reaction.Refiles.meets⟩

theorem parallel_log (h : logContrast.Keeps take) (limit : Nat) {step step' : Step}
    (hstep : step.RefilesPlainly step') :
    logContrast.Parallel take Eq (step.procedure limit) (step'.procedure limit) := by
  have hupheld := upheld_log h
  have hcommand := h.blind_process fun _ _ => Iff.rfl
  cases hstep with
  | setLogDirectory hd hd' =>
    refine Parallel.bind_eq (parallel_change fun s t hst => ⟨?_, hst.script⟩) fun _ => parallel_pure rfl
    exact { hst.world with
      logs := ⟨⟨hst.world.logs.1.levels, hd⟩, ⟨hst.world.logs.2.levels, hd'⟩⟩ }
  | same hreactive hlogging =>
    have hcontext : ∀ (c : Nat) (x : Context), logContrast.contextAt c x = x :=
      Contrast.contextAt_eq_self fun _ => rfl
    have hbootstrap : ∀ (i : Nat) (b : Bootstrap), logContrast.bootstrapAt i b = b :=
      Contrast.bootstrapAt_eq_self fun _ => rfl
    refine hupheld.procedure limit hreactive Reaction.Refiles.meets
      (fun _ => hcommand) (fun hl => ?_) fun hf => ?_
    · rw [hl] at hlogging
      cases hlogging
    · cases step with
      | configuration context heading =>
        exact Contrast.Upheld.configuration limit heading fun c x _ _ => by rw [hcontext]
      | activate bootstrap context =>
        refine hupheld.activation limit fun i c b x _ _ _ _ => ?_
        exact Contrast.Upheld.parallel_arrange_of_eq (hupheld.checking hcommand).ensureDependency
          (by rw [hcontext, hbootstrap])
      | _ => cases hf

/-- A step in both runs, with all that is nested in it. -/
theorem perform_log (limit depth : Nat) {step step' : Step} (hstep : step.Refiles step') {s t : Setting}
    (hst : logContrast.Settings s t) (hs : (step.perform limit depth s).2.world.Recorded)
    (ht : (step'.perform limit depth t).2.world.Recorded) :
    (step.perform limit depth s).1 = (step'.perform limit depth t).1 ∧
      logContrast.Settings (step.perform limit depth s).2 (step'.perform limit depth t).2 := by
  refine nests_log.perform (fun hplain => ?_) (fun _ _ _ hkeeps => parallel_log hkeeps limit) depth hstep
    hst hs ht
  cases hplain with
  | same hreactive => exact ⟨Step.not_isExtension_of_not_isReactive hreactive,
      Step.not_isExtension_of_not_isReactive hreactive⟩
  | setLogDirectory => exact ⟨rfl, rfl⟩

end Log

namespace Step

/-- The answers to steps that are taken one after another. -/
def answers (limit depth : Nat) : List Step → Setting → List Answer
  | [], _ => []
  | step :: steps, s =>
    (step.perform limit depth s).1 :: answers limit depth steps (step.leave limit depth s)

theorem answers_of_refiles (limit depth : Nat) {steps steps' : List Step}
    (hsteps : List.Forall₂ Step.Refiles steps steps') {s t : Setting} (hst : logContrast.Settings s t)
    (hs : (leaveAll limit depth steps s).world.Recorded)
    (ht : (leaveAll limit depth steps' t).world.Recorded) :
    answers limit depth steps s = answers limit depth steps' t ∧
      logContrast.Settings (leaveAll limit depth steps s) (leaveAll limit depth steps' t) := by
  induction hsteps generalizing s t with
  | nil => exact ⟨rfl, hst⟩
  | @cons step step' steps steps' hstep _ ih =>
    have hrest : ∀ (step : Step) (steps : List Step) (s : Setting),
        (leaveAll limit depth (step :: steps) s).world.Recorded →
          (step.perform limit depth s).2.world.Recorded := fun step steps s h e he =>
      h e ((Step.meanwhile_leaveAll limit depth steps (step.leave limit depth s)).evolves.trace.subset he)
    obtain ⟨hanswer, hafter⟩ :=
      perform_log limit depth hstep hst (hrest step steps s hs) (hrest step' steps' t ht)
    obtain ⟨hanswers, hfinal⟩ := ih hafter hs ht
    exact ⟨congrArg₂ List.cons hanswer hanswers, hfinal⟩

theorem settings_log {script script' : Script}
    (hscript : ∀ q, List.Forall₂ Reaction.Refiles (script q) (script' q)) {d d' : LogDirectory}
    (hd : d.IsTolerable) (hd' : d'.IsTolerable) (workingDirectory : String) :
    logContrast.Settings (.start workingDirectory d script) (.start workingDirectory d' script') where
  world := {
    contexts := rfl
    context := .inl ⟨fun _ => rfl, fun _ => trivial⟩
    bootstraps := rfl
    bootstrap := .inl ⟨fun _ => rfl, fun _ => trivial⟩
    configs := rfl
    controllers := rfl
    sessionCalls := rfl
    sessions := rfl
    disposables := .nil
    subscribed := rfl
    workingDirectory := rfl
    connections := rfl
    logs := ⟨⟨nofun, hd⟩, ⟨nofun, hd'⟩⟩
    trace := .nil }
  script := ⟨fun q _ => (hscript q).imp fun _ _ => Reaction.Refiles.meets,
    (hscript .process).imp fun _ _ => Reaction.Refiles.meets⟩

/-- Two runs of the same steps, also of those during calls, but with any two histories of the log
directory, answer the same and leave contexts, bootstraps, controllers and sessions alike, if no log
refuses a record in either. Disposables and traces differ only in the directories that nested steps set,
and traces in what is asked and said about the files of channels. No step asks about these. -/
theorem run_of_refiles {steps steps' : List Step} (hsteps : List.Forall₂ Step.Refiles steps steps')
    {script script' : Script}
    (hscript : ∀ q, List.Forall₂ Reaction.Refiles (script q) (script' q)) {d d' : LogDirectory}
    (hd : d.IsTolerable) (hd' : d'.IsTolerable) (limit depth : Nat) (workingDirectory : String) :
    let s := Setting.start workingDirectory d script
    let t := Setting.start workingDirectory d' script'
    let v := (leaveAll limit depth steps s).world
    let w := (leaveAll limit depth steps' t).world
    v.Recorded → w.Recorded → answers limit depth steps s = answers limit depth steps' t ∧
      w = { v with
        disposables := w.disposables
        handlers := w.handlers
        levels := w.levels
        files := w.files
        logDirectory := w.logDirectory
        formerDirectories := w.formerDirectories
        trace := w.trace } ∧
      List.Forall₂ (Disposable.Meets Reaction.Refiles) v.disposables w.disposables ∧
      List.Forall₂ (Event.Meets Step.Refiles) (v.trace.filter (!·.isFiling))
        (w.trace.filter (!·.isFiling)) := by
  intro s t v w hv hw
  obtain ⟨hanswers, hfinal⟩ := answers_of_refiles limit depth hsteps
    (settings_log hscript hd hd' workingDirectory) hv hw
  have hworld : logContrast.Worlds v w := hfinal.world
  refine ⟨hanswers, hworld.frame.trans ?_, hworld.disposables, hworld.trace⟩
  rw [show logContrast.refit = id from rfl, show logContrast.reset = id from rfl, List.modify_id,
    List.modify_id]

/-- An activation before which a step sets the log directory. -/
def filedSteps (d : LogDirectory) : List Step :=
  [.newContext (.path ⟨.none, []⟩) (.member (.text "development")) .null .host, .newBootstrap none,
    .setLogDirectory d, .activate 1 1, .deactivate 1]

/-- While the server is connected to, the log directory is set before a second session is made. -/
def filedScript (d : LogDirectory) : Script :=
  .once .connect [.setLogDirectory d, .buildSession (.socket "" 1) .standard] none

/-- The log directory is refused before the activation and usable during it, or the other way round. -/
theorem run_of_directories_swapped :
    let usable : LogDirectory := .usable "logs"
    let refused : LogDirectory := .refused "old/logs" (.raised .permission "")
    (answers 9 9 (filedSteps refused) (.start "" usable (filedScript usable))).all Except.isOk = true ∧
      let s := Setting.start "" usable (filedScript usable)
      let t := Setting.start "" usable (filedScript refused)
      let v := (leaveAll 9 9 (filedSteps refused) s).world
      let w := (leaveAll 9 9 (filedSteps usable) t).world
      (v.Recorded ∧ w.Recorded) ∧ answers 9 9 (filedSteps refused) s = answers 9 9 (filedSteps usable) t ∧
        w = { v with
          disposables := w.disposables
          handlers := w.handlers
          levels := w.levels
          files := w.files
          logDirectory := w.logDirectory
          formerDirectories := w.formerDirectories
          trace := w.trace } ∧
        List.Forall₂ (Disposable.Meets Reaction.Refiles) v.disposables w.disposables ∧
        List.Forall₂ (Event.Meets Step.Refiles) (v.trace.filter (!·.isFiling))
          (w.trace.filter (!·.isFiling)) := by
  intro usable refused
  have husable : usable.IsTolerable := LogDirectory.isTolerable_usable _
  have hrefused : refused.IsTolerable := by
    intro fault hfault
    rw [← Option.some.inj hfault]
    rfl
  have hplain : ∀ step : Step, step.isReactive = false → step.isLogging = false → step.Refiles step :=
    fun _ hreactive hlogging => .plain (.same hreactive hlogging)
  have hsteps : List.Forall₂ Step.Refiles (filedSteps refused) (filedSteps usable) :=
    .cons (hplain _ rfl rfl) <| .cons (hplain _ rfl rfl) <|
      .cons (.plain (.setLogDirectory hrefused husable)) <| .cons (hplain _ rfl rfl) <|
      .cons (hplain _ rfl rfl) .nil
  have hscript : ∀ q, List.Forall₂ Reaction.Refiles (filedScript usable q) (filedScript refused q) := by
    intro q
    simp only [filedScript, Script.once]
    split
    · refine .cons (.mk (.cons (.plain (.setLogDirectory husable hrefused)) (.cons ?_ .nil)) _ _ _) .nil
      exact hplain _ rfl rfl
    · exact .nil
  have hrun := run_of_refiles hsteps hscript husable husable 9 9 ""
  have hrecorded : ∀ d d', ((d = usable ∧ d' = refused) ∨ (d = refused ∧ d' = usable)) →
    (leaveAll 9 9 (filedSteps d') (.start "" usable (filedScript d))).world.Recorded := by
    rintro _ _ (⟨rfl, rfl⟩ | ⟨rfl, rfl⟩) <;> decide +kernel
  have hv := hrecorded _ _ (.inl ⟨rfl, rfl⟩)
  have hw := hrecorded _ _ (.inr ⟨rfl, rfl⟩)
  exact ⟨by decide +kernel, ⟨hv, hw⟩, hrun hv hw⟩

/-- A session whose channel has a file with a name of 256 bytes starts only if there is no directory for
that file. With any name, the directory may be lost before the file is opened. -/
theorem answers_of_unfiled :
    let usable : LogDirectory := .usable "logs"
    let refused : LogDirectory := .refused "logs" (.raised .permission "")
    let outcomes := fun name before after =>
      (answers 9 9 [.newSession (.text "s") (.socket loopbackHost developmentPort)
        { SessionOptions.standard with channelName := name }, .setLogDirectory after, .startSession 1]
        (.start "" before .empty)).map Except.isOk
    let unfiled := String.ofList (List.replicate 252 '0')
    outcomes unfiled usable usable = [true, true, false] ∧
      outcomes unfiled refused refused = [true, true, true] ∧
      outcomes "s" usable refused = [true, true, false] ∧
      outcomes "s" refused refused = [true, true, true] := by
  decide +kernel

end Step

end EditorClient

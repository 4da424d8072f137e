import EditorClient.Proofs.ChannelHistory

/-! The files of output channels and their levels, over whole runs. The first call for a channel that finds
a directory for its file gives it the only one that it ever has. -/

namespace EditorClient

open Procedure

/-- What a moment tells of channels. The step that begins at it has done nothing yet. -/
def Moment.channelHistory (log : LogDirectory) : Moment → ChannelHistory
  | .begins _ w => .ofTrace log w.trace.dropLast
  | m => .ofTrace log m.world.trace

/-- What is answered to a step that asks for a channel, unless the directory for its file is refused for
a reason that is not one of the operating system. -/
def Moment.AnswersChannel : Moment → Prop
  | .ends (.openChannel name) answer w =>
    let files := w.filesOf (channelSlug name)
    answer = .ok (.channel (Logger.channel (channelSlug name)) files.length
        (w.level (Logger.channel (channelSlug name)))) ∨
      ∃ fault, w.logDirectory.refusal = some fault ∧ fault.isOs = false ∧ files = [] ∧
        answer = .error fault
  | _ => True

/-- Each channel has at most one file, from the first call for it that found a directory, and its level
is that of debugging just if it has a file. Whoever asks for a channel is told both. -/
structure Moment.KeepsChannels (log : LogDirectory) (m : Moment) : Prop where
  files : ∀ slug, m.world.filesOf slug = ((m.channelHistory log).file? slug).toList
  levels : ∀ slug, m.world.level (Logger.channel slug) = (m.channelHistory log).level slug
  named : ∀ h ∈ m.world.handlers, ∃ name, h.slug = channelSlug name
  sessions : ∀ x ∈ m.world.sessions, x.slug = channelSlug x.options.channelName ∧
    ∃ u ∈ (m.channelHistory log).uses, u.slug = x.slug
  answered : ∀ name answer w, m = .ends (.openChannel name) answer w →
    let file := (m.channelHistory log).file? (channelSlug name)
    answer = .ok (match file with
      | some _ => .channel (Logger.channel (channelSlug name)) 1 Level.debug
      | none => .channel (Logger.channel (channelSlug name)) 0 Level.unset) ∨
      ∃ fault, w.logDirectory.refusal = some fault ∧ fault.isOs = false ∧ file = none ∧
        answer = .error fault

theorem World.Registers.keepsChannels {log : LogDirectory} {m : Moment} (hm : m.world.Registers log)
    (hhistory : m.channelHistory log = .ofTrace log m.world.trace) (ha : m.AnswersChannel) :
    m.KeepsChannels log := by
  have hagrees : m.world.Agrees (m.channelHistory log) := hhistory ▸ hm.agrees
  refine ⟨hagrees.files, hagrees.levels, hm.named, hhistory ▸ hm.sessions,
    fun name answer w hends => ?_⟩
  subst hends
  have hfiles : w.filesOf (channelSlug name) = _ := hagrees.files (channelSlug name)
  have hlevel : w.level (Logger.channel (channelSlug name)) = _ := hagrees.levels (channelSlug name)
  rw [Moment.AnswersChannel, hfiles, hlevel, ChannelHistory.level] at ha
  cases hf : (Moment.channelHistory log (.ends (.openChannel name) answer w)).file?
      (channelSlug name) with
  | none => simpa [hf] using ha
  | some file => simpa [hf] using ha

namespace Chronicle

variable {log : LogDirectory} {h : Chronicle}

/-- All moments so far keep channels, and files have only ever been added. -/
structure KeptChannels (log : LogDirectory) (h : Chronicle) : Prop where
  moments : ∀ m ∈ h.past, m.KeepsChannels log
  grown : ∀ m ∈ h.past, m.world.handlers <+: h.world.handlers
  grows : h.past.Pairwise fun m m' => m.world.handlers <+: m'.world.handlers

theorem KeptChannels.of_past {h' : Chronicle} (hk : h.KeptChannels log) (hpast : h'.past = h.past)
    (hf : h.world.handlers <+: h'.world.handlers) : h'.KeptChannels log where
  moments := hpast ▸ hk.moments
  grown := fun m hm => (hk.grown m (hpast ▸ hm)).trans hf
  grows := hpast ▸ hk.grows

theorem KeptChannels.add (hk : h.KeptChannels log) {m : Moment} (hm : m.KeepsChannels log)
    (hf : h.world.handlers <+: m.world.handlers) : (h.add m).KeptChannels log where
  moments := by
    intro m' hm'
    rcases List.mem_append.mp hm' with hm' | hm'
    · exact hk.moments m' hm'
    · exact List.mem_singleton.mp hm' ▸ hm
  grown := by
    intro m' hm'
    rcases List.mem_append.mp hm' with hm' | hm'
    · exact (hk.grown m' hm').trans hf
    · exact List.mem_singleton.mp hm' ▸ List.prefix_rfl
  grows := by
    refine List.pairwise_append.mpr ⟨hk.grows, List.pairwise_singleton .., fun m' hm' n hn => ?_⟩
    exact List.mem_singleton.mp hn ▸ (hk.grown m' hm').trans hf

/-- Channels are in order, before any step begins that is about them. -/
structure Registered (log : LogDirectory) (h : Chronicle) : Prop where
  kept : h.KeptChannels log
  world : h.world.Registers log

theorem Registered.spares (hr : h.Registered log) {f : World → World}
    (hf : World.SparesChannels h.world (f h.world)) : (h.change f).Registered log :=
  ⟨hr.kept.of_past rfl (hf.handlers ▸ List.prefix_rfl), hr.world.spares hf⟩

theorem Registered.begins (hr : h.Registered log) (step : Step) : (h.begins step).KeptChannels log := by
  have hhistory : (Moment.begins step (h.world.happen (.began step))).channelHistory log =
      .ofTrace log h.world.trace := by
    rw [Moment.channelHistory, World.happen, List.dropLast_concat]
  exact hr.kept.add ⟨fun slug => hhistory ▸ hr.world.agrees.files slug,
    fun slug => hhistory ▸ hr.world.agrees.levels slug, hr.world.named, hhistory ▸ hr.world.sessions,
    fun _ _ _ hends => by cases hends⟩ List.prefix_rfl

theorem Registered.ends (hr : h.Registered log) {step : Step} {answer : Answer}
    (ha : (Moment.ends step answer (h.world.happen (.ended answer))).AnswersChannel) :
    (h.ends step answer).Registered log := by
  have hw := hr.world.spares (h.world.sparesChannels_happen (e := .ended answer) rfl)
  exact ⟨hr.kept.add (hw.keepsChannels rfl ha) List.prefix_rfl, hw⟩

/-- Other steps may be taken during a call. -/
abbrev Registering {α : Type} (log : LogDirectory) (p : Procedure α) : Prop :=
  p.Maintains (.ofChronicles (Registered log) fun h h' => h.world.Meanwhile h'.world)
    (Registered log)

theorem KeptChannels.calls (hk : h.KeptChannels log) {c : Call}
    (hw : (h.world.happen (.called c)).Registers log) : (h.calls c).Registered log :=
  ⟨hk.add (m := .calls c _) (hw.keepsChannels rfl trivial) List.prefix_rfl, hw⟩

theorem Registered.returns (hr : h.Registered log) (c : Call) (r : Except Fault Reply) :
    (h.returns c r).Registered log :=
  ⟨hr.kept.add (m := .returns c r h.world) (hr.world.keepsChannels rfl trivial) List.prefix_rfl,
    hr.world⟩

theorem registering_request {c : Call} (hc : (Event.called c).isOfChannels = false) :
    Registering log (request c) := by
  intro h hr
  have hcalled := hr.kept.calls (hr.world.spares (h.world.sparesChannels_happen hc))
  exact (leads_request c _).mpr ⟨hcalled, fun r h' hr' _ => hr'.returns c r⟩

theorem registering_newSession (name : Value) (transport : Transport) (options : SessionOptions) :
    Registering log (newSession name transport options) := by
  intro h hr
  rw [newSession, leads_bind]
  refine (follows_openChannel options.channelName h).mono fun r h' hopened => ?_
  obtain ⟨hpast, hopens⟩ := hopened
  have hkept := hr.kept.of_past hpast hopens.opened.handlers
  cases r with
  | error f => exact ⟨hkept, hr.world.spares hopens.sparesChannels⟩
  | ok slug =>
    have hcalled := hkept.calls (hr.world.makeClient hopens)
    refine (leads_bind _ _ _).mpr ((leads_request _ _).mpr ⟨hcalled, fun r h'' hr' hm => ?_⟩)
    cases r with
    | error f => exact hr'.returns _ _
    | ok reply =>
      -- Whatever happened while the client was made, the call for the channel is remembered.
      have hused := World.Registers.mem_uses_makeClient log hm.evolves.trace
      have hadded := hr'.world.addSession (x := ⟨name, transport, options, slug, none, false, false,
        false, 0⟩) (hopens.slug_eq rfl) hused
      exact ⟨(hr'.returns _ _).kept.of_past rfl List.prefix_rfl,
        hadded.spares (World.sparesChannels_happen _ rfl)⟩

theorem registering_channelwise (log : LogDirectory) : Channelwise fun p => Registering log p := by
  have hgood := maintains_compositional
    (.ofChronicles (Registered log) fun h h' => h.world.Meanwhile h'.world) (Registered log)
  have hspare : ∀ f : World → World, (∀ w, World.SparesChannels w (f w)) →
      Registering log (Procedure.change f) := fun f hf h hr => hr.spares (hf h.world)
  exact {
    bind := hgood.bind
    recoverOrdinary := hgood.recoverOrdinary
    recoverOs := hgood.recoverOs
    recover := Maintains.recover
    pure := fun _ _ hr => hr
    throw := fun _ _ hr => hr
    fail := fun _ _ _ hr => hr
    remark := fun _ => hspare _ fun w => w.sparesChannels_happen rfl
    post := fun p h hr => (leads_post p _).mpr
      ⟨fun _ _ => hr.spares (f := (·.happen (.refused p))) (h.world.sparesChannels_happen rfl),
        fun _ => hr.spares (h.world.sparesChannels_post p)⟩
    notice := fun _ => registering_request rfl
    command := fun _ => registering_request rfl
    find := maintains_find
    ask := fun _ _ hr => hr
    index := fun sort objects number h hr => (leads_index sort objects number _).mpr
      ⟨fun _ _ _ => hr, fun _ => hr⟩
    askDirectory := hspare _ fun w => w.sparesChannels_happen rfl
    addConfig := fun _ => hspare _ fun _ => World.sparesChannels_of_eq rfl rfl rfl rfl rfl
    request := fun _ => registering_request
    spare := hspare
    newSession := registering_newSession }

/-- A step that opens a channel begins. -/
theorem Registered.opens (hr : h.Registered log) {name : String} {step : Step}
    (hstep : ∀ c : ChannelHistory, c.next (.began step) = c.use (channelSlug name)) :
    (openChannel name).Follows (Registered log) (fun h h' => h.world.Meanwhile h'.world)
      (h.begins step) fun r h' => h'.Registered log ∧ (h.begins step).world.Opens name r h'.world := by
  refine (follows_openChannel name _).mono fun r h' hopened => ?_
  obtain ⟨hpast, hopens⟩ := hopened
  exact ⟨⟨(hr.begins step).of_past hpast hopens.opened.handlers, hr.world.opens hstep hopens⟩, hopens⟩

/-- A step leads from its beginning to an end at which channels are in order again. -/
abbrev Restores (log : LogDirectory) (limit : Nat) (h : Chronicle) (step : Step) : Prop :=
  (step.procedure limit).Follows (Registered log) (fun h h' => h.world.Meanwhile h'.world)
    (h.begins step) fun answer h' => (h'.ends step answer).Registered log

theorem Registered.restores_apart (hr : h.Registered log) (limit : Nat) {step : Step}
    (hstep : (Event.began step).isOfChannels = false) : h.Restores log limit step := by
  have hbegan : (h.begins step).Registered log :=
    ⟨hr.begins step, hr.world.spares (h.world.sparesChannels_happen hstep)⟩
  have hprocedure := (registering_channelwise log).procedure limit hstep
  refine (hprocedure _ hbegan).mono fun answer h' hr' => hr'.ends ?_
  cases step with
  | openChannel name => cases hstep
  | _ => trivial

theorem Registered.restores_setLogDirectory (hr : h.Registered log) (limit : Nat)
    (directory : LogDirectory) : h.Restores log limit (.setLogDirectory directory) := by
  have hset : ((h.begins (.setLogDirectory directory)).change
      (Host.setLogDirectory directory)).Registered log :=
    ⟨(hr.begins _).of_past rfl List.prefix_rfl, hr.world.setLogDirectory directory⟩
  exact hset.ends trivial

theorem Registered.restores_openChannel (hr : h.Registered log) (limit : Nat) (name : String) :
    h.Restores log limit (.openChannel name) := by
  rw [Restores, Step.procedure, Host.channelState, follows_bind]
  refine (hr.opens fun _ => rfl).mono fun r h' hopened => ?_
  obtain ⟨hr', hopens⟩ := hopened
  cases r with
  | error fault =>
    obtain ⟨hd, hos, hnone⟩ := hopens.refused
    exact hr'.ends (.inr ⟨fault, hd, hos, hnone, rfl⟩)
  | ok slug =>
    refine hr'.ends (.inl ?_)
    rw [hopens.slug_eq rfl]
    rfl

theorem Registered.restores_writeChannel (hr : h.Registered log) (limit : Nat) (name : String)
    (level : Int) (text : String) : h.Restores log limit (.writeChannel name level text) := by
  rw [Restores, Step.procedure, follows_bind]
  refine (hr.opens fun _ => rfl).mono fun r h' hopened => ?_
  cases r with
  | error fault => exact hopened.1.ends trivial
  | ok slug =>
    have hgood := registering_channelwise log
    have hpost := hgood.bind (hgood.post (.message slug level text)) fun _ =>
      hgood.pure Response.nothing
    exact (hpost h' hopened.1).mono fun answer h'' hr' => hr'.ends trivial

end Chronicle

theorem Step.registered_contract (limit : Nat) (log : LogDirectory) :
    Chronicle.Contract limit (Chronicle.Registered log) (fun h h' => h.world.Meanwhile h'.world)
      fun _ _ => True where
  refl := fun _ => trivial
  trans := fun _ _ => trivial
  relied := fun _ hm => hm
  course := by
    intro step h hr
    have hrestores : h.Restores log limit step := by
      by_cases hstep : (Event.began step).isOfChannels = false
      · exact hr.restores_apart limit hstep
      -- The others are not in order just after they began, but get there before anything is called.
      · cases step with
        | setLogDirectory directory => exact hr.restores_setLogDirectory limit directory
        | openChannel name => exact hr.restores_openChannel limit name
        | writeChannel name level text => exact hr.restores_writeChannel limit name level text
        | _ => exact absurd rfl hstep
    exact hrestores.mono fun _ _ hr' => ⟨hr', trivial⟩

namespace World

/-- Each file is directly in its directory and belongs to one channel only. A record of a channel is
written to the file of that channel, and leaves all others as they are. -/
structure SeparatesChannels (w : World) : Prop where
  inside : ∀ h ∈ w.handlers, h.file = h.directory ++ "/" ++ (h.slug ++ ".log") ∧
    '/' ∉ (h.slug ++ ".log").toList
  distinct : ∀ h ∈ w.handlers, ∀ h' ∈ w.handlers, h.file = h'.file → h = h'
  own : ∀ name r, LogRecord.logger r = Logger.channel (channelSlug name) →
    w.reached r = w.filesOf (channelSlug name)
  written : ∀ name p, (Posting.record p).logger = Logger.channel (channelSlug name) →
    Level.debug ≤ p.record.level → ∀ h ∈ w.filesOf (channelSlug name),
      ∃ f ∈ (w.post p).files, f.handler = h ∧ ∃ text, f.text = text ++ p.record.line
  others : ∀ name p, (Posting.record p).logger = Logger.channel (channelSlug name) →
    (w.post p).files.filter (fun f => f.handler.slug != channelSlug name) =
      w.files.filter fun f => f.handler.slug != channelSlug name

end World

theorem Moment.KeepsChannels.separates {log : LogDirectory} {m : Moment} (hm : m.KeepsChannels log) :
    m.world.SeparatesChannels := by
  have hslug : ∀ h ∈ m.world.handlers, '/' ∉ h.slug.toList := by
    intro h hh
    obtain ⟨name, hname⟩ := hm.named h hh
    rw [hname]
    exact slash_not_mem_channelSlug name
  refine ⟨fun h hh => ⟨rfl, FileHandler.slash_not_mem_fileName (hslug h hh)⟩, fun h hh h' hh' => ?_,
    fun _ _ => m.world.reached_eq_filesOf, fun name p hp he h hh => ?_,
    fun _ _ => m.world.filter_post⟩
  · exact FileHandler.eq_of_file_eq (hslug h hh) (hslug h' hh')
  · rw [hm.files, Option.mem_toList] at hh
    have hlevel : m.world.level p.record.logger = Level.debug := by
      rw [hp, hm.levels, ChannelHistory.level, hh, Option.isSome_some, if_pos rfl]
    exact m.world.exists_written hp (m.world.emits_of_level hlevel (by decide) he)
      (by rw [hm.files, hh, Option.toList_some])

namespace Step

/-- At all moments of all runs each channel is as the calls for it have left it, whichever they were and
wherever logs could be kept in the meantime. Files are only ever added, names share a channel just if they
have one slug, and no channel is above another. -/
theorem channels_of_run (limit depth : Nat) (directory : String) (log : LogDirectory)
    (script : Script) (steps : List Step) :
    let moments := runMoments limit depth steps (.start directory log script)
    (∀ m ∈ moments, m.KeepsChannels log ∧ m.world.SeparatesChannels) ∧
      (moments.Pairwise fun m m' => m.world.handlers <+: m'.world.handlers) ∧
      ∀ a b,
        (Logger.channel (channelSlug a) = Logger.channel (channelSlug b) ↔
          channelSlug a = channelSlug b) ∧
        (Logger.reaches (Logger.channel (channelSlug a)) (Logger.channel (channelSlug b)) = true →
          channelSlug a = channelSlug b) := by
  intro moments
  have hstart : Chronicle.Registered log ⟨[], .initial directory log⟩ :=
    ⟨⟨List.forall_mem_nil _, List.forall_mem_nil _, .nil⟩, World.registers_initial directory log⟩
  have hrun := ((registered_contract limit log).leaveAll depth steps (.start directory log script)
    hstart).kept
  refine ⟨fun m hm => ⟨hrun.moments m hm, (hrun.moments m hm).separates⟩, hrun.grows, fun a b => ?_⟩
  exact ⟨Logger.channel_inj, (Logger.reaches_channel_iff (dot_not_mem_channelSlug b)).mp⟩

/-- The directory is refused, then there is one, then another. Two names share a channel, and a session
is made on it. -/
def filingSteps : List Step :=
  [.openChannel "A b", .setLogDirectory (.usable "first"), .openChannel "a-B",
    .setLogDirectory (.usable "second"), .openChannel "A b",
    .newSession (.text "s") (.socket loopbackHost 2087) ⟨[], "(a) b", []⟩, .openChannel "c"]

/-- The file stays where the first call put it that found a directory. -/
theorem channels_of_directory_changed :
    let s := Setting.unlogged .empty
    ∃ m ∈ runMoments 9 9 filingSteps s,
      m.world.handlers = [⟨"a-b", "first"⟩, ⟨"c", "second"⟩] ∧
      m.world.sessions.map (·.slug) = ["a-b"] ∧
      m.KeepsChannels (.refused "logs" (.raised .os "")) ∧ m.world.SeparatesChannels := by
  intro s
  obtain ⟨m, hm, hw⟩ := exists_moment_leaveAll 9 (show 9 ≠ 0 by decide) filingSteps (by decide) s
  obtain ⟨hkeeps, hseparates⟩ :=
    (channels_of_run 9 9 "" (.refused "logs" (.raised .os "")) .empty filingSteps).1 m hm
  refine ⟨m, hm, ?_, ?_, hkeeps, hseparates⟩
  · rw [hw]
    decide +kernel
  · rw [hw]
    decide +kernel

end Step

end EditorClient

import EditorClient.Proofs.ChannelFile
import EditorClient.Proofs.ChannelSteps
import EditorClient.Proofs.Chronicle

/-! What a trace tells of output channels, and how each call for a channel agrees with it. The first call
that finds a directory gives the channel a file and a level; all others leave both as they are. -/

namespace EditorClient

open Procedure

/-- A call for the channel of this slug, and where logs could be kept then. -/
structure ChannelUse where
  slug : String
  directory : LogDirectory

/-- The file that the call gives its channel, if it has none and if there can be one. -/
def ChannelUse.file? (u : ChannelUse) : Option FileHandler :=
  match u.directory.refusal with
  | none => some ⟨u.slug, u.directory.path⟩
  | some _ => none

theorem ChannelUse.file?_of_usable {u : ChannelUse} (h : u.directory.refusal = none) :
    u.file? = some ⟨u.slug, u.directory.path⟩ := by
  rw [file?, h]

theorem ChannelUse.file?_of_refused {u : ChannelUse} {fault : Fault}
    (h : u.directory.refusal = some fault) : u.file? = none := by
  rw [file?, h]

theorem ChannelUse.slug_of_file? {u : ChannelUse} {h : FileHandler} (hu : u.file? = some h) :
    h.slug = u.slug := by
  unfold file? at hu
  split at hu
  · rw [← Option.some.inj hu]
  · cases hu

theorem ChannelUse.filter_file?_of_ne {u : ChannelUse} {slug : String} (h : u.slug ≠ slug) :
    u.file?.filter (fun x => x.slug == slug) = none := by
  refine Option.filter_eq_none_iff.mpr fun x hx => ?_
  rw [ChannelUse.slug_of_file? hx]
  simpa using h

/-- What a trace tells of channels: where logs can be kept, and the calls for channels so far. -/
structure ChannelHistory where
  directory : LogDirectory
  uses : List ChannelUse

namespace ChannelHistory

def use (c : ChannelHistory) (slug : String) : ChannelHistory :=
  { c with uses := c.uses ++ [⟨slug, c.directory⟩] }

/-- A session calls for its channel, and then its client is made with it. -/
def next (c : ChannelHistory) : Event → ChannelHistory
  | .began (.setLogDirectory directory) => { c with directory := directory }
  | .began (.openChannel name) | .began (.writeChannel name ..) => c.use (channelSlug name)
  | .called (.makeClient slug) => c.use slug
  | _ => c

def ofTrace (log : LogDirectory) (trace : List Event) : ChannelHistory := trace.foldl next ⟨log, []⟩

/-- The file of the first call for this channel that could give it one. -/
def file? (c : ChannelHistory) (slug : String) : Option FileHandler :=
  (c.uses.filterMap ChannelUse.file?).find? fun h => h.slug == slug

/-- The level of a channel is that of debugging from the call on that gave it a file. -/
def level (c : ChannelHistory) (slug : String) : Int :=
  if (c.file? slug).isSome then Level.debug else Level.unset

variable {log : LogDirectory} {trace : List Event}

theorem ofTrace_concat (e : Event) :
    ofTrace log (trace ++ [e]) = (ofTrace log trace).next e := by
  simp [ofTrace, List.foldl_append]

theorem next_of_not_isOfChannels {e : Event} (he : e.isOfChannels = false) (c : ChannelHistory) :
    c.next e = c := by
  unfold next
  split <;> first | rfl | simp [Event.isOfChannels] at he

theorem ofTrace_append {es : List Event} (hes : ∀ e ∈ es, e.isOfChannels = false) :
    ofTrace log (trace ++ es) = ofTrace log trace := by
  rw [ofTrace, List.foldl_append]
  change es.foldl next (ofTrace log trace) = _
  induction es with
  | nil => rfl
  | cons e es ih =>
    rw [List.foldl_cons, next_of_not_isOfChannels (hes e (.head _))]
    exact ih fun x hx => hes x (.tail _ hx)

theorem uses_prefix_next (c : ChannelHistory) (e : Event) : c.uses <+: (c.next e).uses := by
  unfold next
  split
  · exact List.prefix_rfl
  · exact List.prefix_append _ _
  · exact List.prefix_append _ _
  · exact List.prefix_append _ _
  · exact List.prefix_rfl

/-- No call is forgotten. -/
theorem uses_prefix_ofTrace {trace' : List Event} (h : trace <+: trace') :
    (ofTrace log trace).uses <+: (ofTrace log trace').uses := by
  obtain ⟨es, rfl⟩ := h
  rw [ofTrace, ofTrace, List.foldl_append]
  generalize trace.foldl next ⟨log, []⟩ = c
  induction es generalizing c with
  | nil => exact List.prefix_rfl
  | cons e es ih => exact (c.uses_prefix_next e).trans (ih (c.next e))

theorem file?_use (c : ChannelHistory) (slug slug' : String) :
    (c.use slug).file? slug' =
      (c.file? slug').or ((ChannelUse.file? ⟨slug, c.directory⟩).filter fun h => h.slug == slug') := by
  simp only [file?, use, List.filterMap_append, List.find?_append]
  congr 1
  cases h : ChannelUse.file? ⟨slug, c.directory⟩ with
  | none => simp [h]
  | some x =>
    rw [List.filterMap_cons_some h, List.filterMap_nil, List.find?_singleton, Option.filter_some]

theorem file?_use_of_ne {c : ChannelHistory} {slug slug' : String} (h : slug ≠ slug') :
    (c.use slug).file? slug' = c.file? slug' := by
  rw [file?_use, ChannelUse.filter_file?_of_ne h, Option.or_none]

/-- A channel that has a file keeps it. -/
theorem file?_use_of_isSome {c : ChannelHistory} {slug : String} (h : (c.file? slug).isSome = true)
    (slug' : String) : (c.use slug).file? slug' = c.file? slug' := by
  by_cases hslug : slug = slug'
  · rw [file?_use, ← hslug]
    exact Option.or_of_isSome h
  · exact file?_use_of_ne hslug

theorem file?_use_of_refused {c : ChannelHistory} {fault : Fault}
    (h : c.directory.refusal = some fault) (slug slug' : String) :
    (c.use slug).file? slug' = c.file? slug' := by
  rw [file?_use, ChannelUse.file?_of_refused h]
  exact Option.or_none

/-- The first call that finds a directory puts the channel's file there. -/
theorem file?_use_self {c : ChannelHistory} {slug : String} (hnone : c.file? slug = none)
    (h : c.directory.refusal = none) : (c.use slug).file? slug = some ⟨slug, c.directory.path⟩ := by
  rw [file?_use, hnone, ChannelUse.file?_of_usable h]
  simp [Option.filter_some]

end ChannelHistory

/-- What opening a channel does to the world, and what comes of it. -/
inductive World.Opens (name : String) (w : World) : Except Fault String → World → Prop
  | known (h : w.hasHandler (channelSlug name) = true) : w.Opens name (.ok (channelSlug name)) w
  | filed (h : w.hasHandler (channelSlug name) = false) (hd : w.logDirectory.refusal = none) :
    w.Opens name (.ok (channelSlug name))
      ((setLevel (Logger.channel (channelSlug name)) Level.debug
        (addHandler ⟨channelSlug name, w.logDirectory.path⟩ (w.happen .askedLogDirectory))).remark
          (.channelFile name (FileHandler.file ⟨channelSlug name, w.logDirectory.path⟩)))
  | unfiled {fault : Fault} (h : w.hasHandler (channelSlug name) = false)
    (hd : w.logDirectory.refusal = some fault) (hos : fault.isOs = true) :
    w.Opens name (.ok (channelSlug name))
      ((w.happen .askedLogDirectory).remark (.channelWithoutFile name fault))
  | failed {fault : Fault} (h : w.hasHandler (channelSlug name) = false)
    (hd : w.logDirectory.refusal = some fault) (hos : fault.isOs = false) :
    w.Opens name (.error fault) (w.happen .askedLogDirectory)

theorem follows_openChannel {inv : Chronicle → Prop} {rely : Chronicle → Chronicle → Prop}
    (name : String) (h : Chronicle) :
    (openChannel name).Follows inv rely h fun r h' =>
      h'.past = h.past ∧ h.world.Opens name r h'.world := by
  rw [openChannel, follows_bind, follows_ask]
  dsimp only [onOk]
  split
  · rename_i hknown
    exact ⟨rfl, .known hknown⟩
  rename_i hknown
  rw [Bool.not_eq_true] at hknown
  rw [follows_bind, follows_recoverOs, attachFile, follows_bind, makeLogDirectory, follows_bind,
    follows_happen]
  dsimp only [onOk]
  rw [follows_bind, follows_ask]
  dsimp only [onOk]
  have hasked : (h.change (·.happen .askedLogDirectory)).world.logDirectory = h.world.logDirectory :=
    rfl
  rw [hasked]
  cases hd : h.world.logDirectory.refusal with
  | none =>
    simp only [follows_pure, onOk, follows_bind, follows_change]
    exact ⟨rfl, .filed hknown hd⟩
  | some fault =>
    rw [follows_throw]
    exact ⟨fun hos => ⟨rfl, .unfiled hknown hd hos⟩, fun hos => ⟨rfl, .failed hknown hd hos⟩⟩

namespace World

variable {w w' : World} {c : ChannelHistory} {name slug : String} {r : Except Fault String}

/-- The files of channels and their levels are those that their history gives them. -/
structure Agrees (w : World) (c : ChannelHistory) : Prop where
  directory : c.directory = w.logDirectory
  files : ∀ slug, w.filesOf slug = (c.file? slug).toList
  levels : ∀ slug, w.level (Logger.channel slug) = c.level slug

theorem hasHandler_eq (w : World) (slug : String) :
    w.hasHandler slug = !(w.filesOf slug).isEmpty := by
  rw [hasHandler, filesOf, Bool.eq_iff_iff]
  simp

theorem Agrees.hasHandler (ha : w.Agrees c) (slug : String) :
    w.hasHandler slug = (c.file? slug).isSome := by
  rw [hasHandler_eq, ha.files]
  cases c.file? slug <;> rfl

theorem Agrees.congr (ha : w.Agrees c) (hd : w'.logDirectory = w.logDirectory)
    (hh : w'.handlers = w.handlers) (hl : w'.levels = w.levels) : w'.Agrees c where
  directory := ha.directory.trans hd.symm
  files := fun slug => by rw [filesOf, hh]; exact ha.files slug
  levels := fun slug => by rw [level, hl]; exact ha.levels slug

/-- A call that changes nothing for the history changes nothing for the channels. -/
theorem Agrees.use (ha : w.Agrees c) (hf : ∀ slug', (c.use slug).file? slug' = c.file? slug') :
    w.Agrees (c.use slug) where
  directory := ha.directory
  files := fun slug' => (hf slug').symm ▸ ha.files slug'
  levels := fun slug' => by rw [ha.levels, ChannelHistory.level, ChannelHistory.level, hf]

theorem level_setLevel (w : World) (logger : String) (n : Int) (logger' : String) :
    (setLevel logger n w).level logger' = if logger' = logger then n else w.level logger' := by
  simp only [level, setLevel, List.lookup_cons]
  by_cases h : logger' = logger
  · simp [h]
  · simp [h, beq_eq_false_iff_ne.mpr h]

/-- The call that gives a channel its file sets its level too. -/
theorem Agrees.attach (ha : w.Agrees c) (hd : w.logDirectory.refusal = none)
    (hnone : c.file? slug = none) :
    (setLevel (Logger.channel slug) Level.debug (addHandler ⟨slug, w.logDirectory.path⟩ w)).Agrees
      (c.use slug) := by
  have hself := ChannelHistory.file?_use_self hnone (ha.directory.symm ▸ hd)
  refine ⟨ha.directory, fun slug' => ?_, fun slug' => ?_⟩
  · have hfiles : (setLevel (Logger.channel slug) Level.debug
          (addHandler ⟨slug, w.logDirectory.path⟩ w)).filesOf slug' = w.filesOf slug' ++
        if slug == slug' then [⟨slug, w.logDirectory.path⟩] else [] := by
      simp [filesOf, setLevel, addHandler, List.filter_append, List.filter_cons]
    rw [hfiles, ha.files]
    by_cases hslug : slug = slug'
    · rw [← hslug, hself, hnone, ha.directory]
      simp
    · rw [ChannelHistory.file?_use_of_ne hslug]
      simp [hslug]
  · have hold : (addHandler ⟨slug, w.logDirectory.path⟩ w).level (Logger.channel slug') =
      w.level (Logger.channel slug') := rfl
    rw [level_setLevel, hold, ha.levels, ChannelHistory.level, ChannelHistory.level]
    by_cases hslug : slug = slug'
    · rw [← hslug, hself]
      simp
    · rw [ChannelHistory.file?_use_of_ne hslug, if_neg (mt Logger.channel_inj.mp (Ne.symm hslug))]

/-- Only the first call that finds a directory makes a difference to the channels. -/
theorem Agrees.opens (ha : w.Agrees c) (h : w.Opens name r w') :
    w'.Agrees (c.use (channelSlug name)) := by
  cases h with
  | known hknown =>
    rw [ha.hasHandler] at hknown
    exact ha.use (ChannelHistory.file?_use_of_isSome hknown)
  | filed hnew hd =>
    rw [ha.hasHandler, Option.isSome_eq_false_iff, Option.isNone_iff_eq_none] at hnew
    exact (ha.attach hd hnew).congr rfl rfl rfl
  | unfiled hnew hd hos =>
    have hrefused := ChannelHistory.file?_use_of_refused (ha.directory.symm ▸ hd) (channelSlug name)
    exact (ha.use hrefused).congr rfl rfl rfl
  | failed hnew hd hos =>
    have hrefused := ChannelHistory.file?_use_of_refused (ha.directory.symm ▸ hd) (channelSlug name)
    exact (ha.use hrefused).congr rfl rfl rfl

/-- What opening a channel leaves as it is. -/
structure Opened (w w' : World) : Prop where
  directory : w'.logDirectory = w.logDirectory
  sessions : w'.sessions = w.sessions
  trace : ∃ es, w'.trace = w.trace ++ es ∧ ∀ e ∈ es, e.isOfChannels = false
  handlers : w.handlers <+: w'.handlers
  named : ∀ h ∈ w'.handlers, h ∈ w.handlers ∨ ∃ name, h.slug = channelSlug name

theorem Opens.opened (h : w.Opens name r w') : w.Opened w' := by
  cases h with
  | known h => exact ⟨rfl, rfl, ⟨[], by simp, nofun⟩, List.prefix_rfl, fun _ => .inl⟩
  | filed h hd =>
    refine ⟨rfl, rfl, ⟨_, List.append_assoc _ _ _, by simp [Event.isOfChannels]⟩,
      List.prefix_append _ _, fun x hx => (List.mem_append.mp hx).imp_right fun hx => ⟨name, ?_⟩⟩
    rw [List.mem_singleton.mp hx]
  | unfiled h hd hos =>
    exact ⟨rfl, rfl, ⟨_, List.append_assoc _ _ _, by simp [Event.isOfChannels]⟩, List.prefix_rfl,
      fun _ => .inl⟩
  | failed h hd hos =>
    exact ⟨rfl, rfl, ⟨[.askedLogDirectory], rfl, by simp [Event.isOfChannels]⟩, List.prefix_rfl,
      fun _ => .inl⟩

theorem Opens.sparesChannels {f : Fault} (h : w.Opens name (.error f) w') : w.SparesChannels w' := by
  cases h with
  | failed => exact w.sparesChannels_happen rfl

/-- Nothing but a directory that is refused can keep a channel from being opened. -/
theorem Opens.refused {f : Fault} (h : w.Opens name (.error f) w') :
    w'.logDirectory.refusal = some f ∧ f.isOs = false ∧ w'.filesOf (channelSlug name) = [] := by
  cases h with
  | failed hnew hd hos =>
    have hnone : w.filesOf (channelSlug name) = [] := by simpa [hasHandler_eq] using hnew
    exact ⟨hd, hos, hnone⟩

theorem Opens.slug_eq (h : w.Opens name r w') (hr : r = .ok slug) : slug = channelSlug name := by
  cases h with
  | failed => cases hr
  | _ => exact (Except.ok.inj hr).symm

/-- Channels are as the trace has left them. Each of their files has the slug of a name, and each session
has called for the channel of its own name. -/
structure Registers (log : LogDirectory) (w : World) : Prop where
  agrees : w.Agrees (.ofTrace log w.trace)
  named : ∀ h ∈ w.handlers, ∃ name, h.slug = channelSlug name
  sessions : ∀ x ∈ w.sessions, x.slug = channelSlug x.options.channelName ∧
    ∃ u ∈ (ChannelHistory.ofTrace log w.trace).uses, u.slug = x.slug

variable {log : LogDirectory}

theorem Registers.spares (hw : w.Registers log) (h : w.SparesChannels w') : w'.Registers log := by
  obtain ⟨es, htrace, hes⟩ := h.trace
  have hhistory : ChannelHistory.ofTrace log w'.trace = .ofTrace log w.trace := by
    rw [htrace, ChannelHistory.ofTrace_append hes]
  refine ⟨hhistory ▸ hw.agrees.congr h.directory h.handlers h.levels, h.handlers ▸ hw.named, ?_⟩
  intro x hx
  have hmem := h.sessions ▸ List.mem_map_of_mem (f := Session.channel) hx
  obtain ⟨y, hy, hyx⟩ := List.mem_map.mp hmem
  have hslug : y.slug = x.slug := congrArg Prod.snd hyx
  have hname : y.options.channelName = x.options.channelName := congrArg Prod.fst hyx
  rw [← hslug, ← hname, hhistory]
  exact hw.sessions y hy

theorem registers_initial (directory : String) (log : LogDirectory) :
    (initial directory log).Registers log :=
  ⟨⟨rfl, fun _ => rfl, fun _ => rfl⟩, List.forall_mem_nil _, List.forall_mem_nil _⟩

theorem Registers.setLogDirectory (hw : w.Registers log) (directory : LogDirectory) :
    (Host.setLogDirectory directory (w.happen (.began (.setLogDirectory directory)))).Registers
      log := by
  have hhistory : ChannelHistory.ofTrace log
      (Host.setLogDirectory directory (w.happen (.began (.setLogDirectory directory)))).trace =
        { ChannelHistory.ofTrace log w.trace with directory := directory } :=
    ChannelHistory.ofTrace_concat _
  refine ⟨hhistory ▸ ⟨rfl, hw.agrees.files, hw.agrees.levels⟩, hw.named, fun x hx => ?_⟩
  rw [hhistory]
  exact hw.sessions x hx

/-- A call for a channel that agrees with the history by then is remembered. -/
theorem Registers.use (hw : w.Registers log)
    (hhistory : ChannelHistory.ofTrace log w'.trace = (ChannelHistory.ofTrace log w.trace).use slug)
    (ha : w'.Agrees ((ChannelHistory.ofTrace log w.trace).use slug)) (hs : w'.sessions = w.sessions)
    (hnamed : ∀ h ∈ w'.handlers, h ∈ w.handlers ∨ ∃ name, h.slug = channelSlug name) :
    w'.Registers log := by
  refine ⟨hhistory ▸ ha, fun x hx => (hnamed x hx).elim (hw.named x) id, fun x hx => ?_⟩
  obtain ⟨hslug, u, hu, hux⟩ := hw.sessions x (hs ▸ hx)
  exact ⟨hslug, u, hhistory ▸ List.mem_append_left _ hu, hux⟩

/-- A step that calls for a channel by its name opens it. -/
theorem Registers.opens (hw : w.Registers log) {step : Step}
    (hstep : ∀ c : ChannelHistory, c.next (.began step) = c.use (channelSlug name))
    (h : (w.happen (.began step)).Opens name r w') : w'.Registers log := by
  have hbegun : (w.happen (.began step)).Agrees _ := hw.agrees.congr rfl rfl rfl
  have hopened := h.opened
  obtain ⟨es, htrace, hes⟩ := hopened.trace
  refine hw.use ?_ (hbegun.opens h) hopened.sessions hopened.named
  rw [htrace, ChannelHistory.ofTrace_append hes, happen, ChannelHistory.ofTrace_concat, hstep]

/-- A session has called for its channel when its client is made. -/
theorem Registers.makeClient (hw : w.Registers log) (h : w.Opens name (.ok slug) w') :
    (w'.happen (.called (.makeClient slug))).Registers log := by
  have hopened := h.opened
  obtain ⟨es, htrace, hes⟩ := hopened.trace
  have ha := hw.agrees.opens h
  rw [← h.slug_eq rfl] at ha
  refine hw.use ?_ (ha.congr rfl rfl rfl) hopened.sessions hopened.named
  rw [happen, ChannelHistory.ofTrace_concat, htrace, ChannelHistory.ofTrace_append hes,
    ChannelHistory.next]

theorem Registers.mem_uses_makeClient (log : LogDirectory) {w w' : World} {slug : String}
    (h : (w.happen (.called (.makeClient slug))).trace <+: w'.trace) :
    ∃ u ∈ (ChannelHistory.ofTrace log w'.trace).uses, u.slug = slug := by
  have hcalled : ChannelHistory.ofTrace log (w.trace ++ [.called (.makeClient slug)]) =
      (ChannelHistory.ofTrace log w.trace).next (.called (.makeClient slug)) :=
    ChannelHistory.ofTrace_concat _
  refine ⟨⟨slug, (ChannelHistory.ofTrace log w.trace).directory⟩,
    (ChannelHistory.uses_prefix_ofTrace h).subset ?_, rfl⟩
  rw [happen, hcalled]
  exact List.mem_append_right _ List.mem_cons_self

theorem Registers.addSession (hw : w.Registers log) {x : Session}
    (hslug : x.slug = channelSlug x.options.channelName)
    (hused : ∃ u ∈ (ChannelHistory.ofTrace log w.trace).uses, u.slug = x.slug) :
    (EditorClient.addSession x w).Registers log := by
  refine ⟨hw.agrees.congr rfl rfl rfl, hw.named, fun y hy => ?_⟩
  rcases List.mem_append.mp hy with hy | hy
  · exact hw.sessions y hy
  · rw [List.mem_singleton.mp hy]
    exact ⟨hslug, hused⟩

end World

end EditorClient

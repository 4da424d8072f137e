import EditorClient.Proofs.Evolution
import EditorClient.Proofs.SlugWords

/-! Which log files the records of a channel reach. Its slug holds no dot, so that they are the files of
that channel only, and no slash, so that each file is directly in its directory. -/

namespace EditorClient

/-- No other character comes up in the name of a channel. -/
theorem mem_channelSlug {name : String} {c : Char} (h : c ∈ (channelSlug name).toList) :
    isSlugChar c = true ∨ c = '-' :=
  (slugText_channelSlug name).mem c h

theorem dot_not_mem_channelSlug (name : String) : '.' ∉ (channelSlug name).toList :=
  fun h => absurd (mem_channelSlug h) (by decide)

theorem slash_not_mem_channelSlug (name : String) : '/' ∉ (channelSlug name).toList :=
  fun h => absurd (mem_channelSlug h) (by decide)

theorem append_cons_inj_of_not_mem {α : Type} {x : α} {k k' l l' : List α} (hk : x ∉ k) (hk' : x ∉ k')
    (h : k ++ x :: l = k' ++ x :: l') : k = k' ∧ l = l' := by
  induction k generalizing k' with
  | nil =>
    cases k' with
    | nil => exact ⟨rfl, (List.cons.inj h).2⟩
    | cons y k' => exact absurd (.inl (List.cons.inj h).1) (mt List.mem_cons.mpr hk')
  | cons y k ih =>
    cases k' with
    | nil => exact absurd (.inl (List.cons.inj h).1.symm) (mt List.mem_cons.mpr hk)
    | cons y' k' =>
      obtain ⟨hy, htail⟩ := List.cons.inj h
      obtain ⟨hk, hl⟩ := ih (mt (List.mem_cons_of_mem _) hk) (mt (List.mem_cons_of_mem _) hk') htail
      exact ⟨by rw [hy, hk], hl⟩

namespace Logger

theorem exists_dot_of_mem_above {x cs : List Char} (h : x ∈ above cs) :
    ∃ pre, cs = pre ++ '.' :: x := by
  fun_induction above cs with
  | case1 c rest ih =>
    rcases List.mem_cons.mp h with rfl | h
    · exact ⟨[], rfl⟩
    · obtain ⟨pre, rfl⟩ := ih h
      exact ⟨'.' :: c :: pre, rfl⟩
  | case2 c rest _ ih =>
    obtain ⟨pre, rfl⟩ := ih h
    exact ⟨c :: pre, rfl⟩
  | case3 => simp at h

theorem eq_of_reaches_channel {a b : String} (hb : '.' ∉ b.toList)
    (h : reaches (channel a) (channel b) = true) : a = b := by
  rcases Bool.or_eq_true_iff.mp h with h | h
  · have hl := congrArg String.toList (beq_iff_eq.mp h)
    simp only [channel, String.toList_append] at hl
    exact String.toList_inj.mp (List.append_cancel_left hl)
  · obtain ⟨pre, hpre⟩ := exists_dot_of_mem_above (List.contains_iff_mem.mp h)
    have hl := congrArg List.reverse hpre
    simp only [channel, String.toList_append, List.reverse_append, List.reverse_reverse,
      List.reverse_cons, List.append_assoc] at hl
    have hb' := List.append_cancel_left hl
    exact absurd (by rw [hb']; simp) hb

theorem channel_inj {a b : String} : channel a = channel b ↔ a = b := by
  rw [channel, channel, ← String.toList_inj, String.toList_append, String.toList_append,
    List.append_cancel_left_eq, String.toList_inj]

theorem reaches_channel_iff {a b : String} (hb : '.' ∉ b.toList) :
    reaches (channel a) (channel b) = true ↔ a = b := by
  refine ⟨eq_of_reaches_channel hb, ?_⟩
  rintro rfl
  simp [reaches]

end Logger

namespace FileHandler

theorem slash_not_mem_fileName {h : FileHandler} (hslug : '/' ∉ h.slug.toList) :
    '/' ∉ h.fileName.toList := by
  rw [fileName, String.toList_append, List.mem_append, not_or]
  exact ⟨hslug, by decide⟩

theorem reverse_file (h : FileHandler) : h.file.toList.reverse =
    h.fileName.toList.reverse ++ '/' :: h.directory.toList.reverse := by
  have hslash : "/".toList = ['/'] := rfl
  rw [file, String.toList_append, String.toList_append, hslash]
  simp

/-- A path is taken apart at its last slash. -/
theorem eq_of_file_eq {h h' : FileHandler} (hslug : '/' ∉ h.slug.toList) (hslug' : '/' ∉ h'.slug.toList)
    (heq : h.file = h'.file) : h = h' := by
  have hchars : h.file.toList.reverse = h'.file.toList.reverse := by rw [heq]
  rw [reverse_file, reverse_file] at hchars
  obtain ⟨hname, hdirectory⟩ := append_cons_inj_of_not_mem
    (mt List.mem_reverse.mp (slash_not_mem_fileName hslug))
    (mt List.mem_reverse.mp (slash_not_mem_fileName hslug')) hchars
  have hslugs := congrArg String.toList (String.toList_inj.mp (List.reverse_inj.mp hname))
  rw [fileName, fileName, String.toList_append, String.toList_append] at hslugs
  have hslugs := String.toList_inj.mp (List.append_cancel_right hslugs)
  have hdirectories := String.toList_inj.mp (List.reverse_inj.mp hdirectory)
  obtain ⟨slug, directory⟩ := h
  obtain ⟨slug', directory'⟩ := h'
  obtain rfl : slug = slug' := hslugs
  obtain rfl : directory = directory' := hdirectories
  rfl

end FileHandler

/-- The files that a channel's records go to. -/
def World.filesOf (w : World) (slug : String) : List FileHandler :=
  w.handlers.filter fun h => h.slug == slug

namespace World

variable {name : String}

theorem reached_eq_filesOf (w : World) {r : LogRecord} (hr : r.logger = Logger.channel (channelSlug name)) :
    w.reached r = w.filesOf (channelSlug name) := by
  refine List.filter_congr fun h _ => ?_
  rw [hr, Bool.eq_iff_iff, Logger.reaches_channel_iff (dot_not_mem_channelSlug name), beq_iff_eq]

theorem filter_addToFile (files : List LogFile) (h : FileHandler) (line : String) :
    (addToFile files h line).filter (fun f => f.handler.slug != h.slug) =
      files.filter fun f => f.handler.slug != h.slug := by
  induction files with
  | nil => simp [addToFile]
  | cons f files ih =>
    unfold addToFile
    split
    · rename_i hf
      simp [hf]
    · simp only [List.filter_cons, ih]

theorem exists_mem_addToFile (files : List LogFile) (h : FileHandler) (line : String) :
    ∃ f ∈ addToFile files h line, f.handler = h ∧ ∃ text, f.text = text ++ line := by
  induction files with
  | nil => exact ⟨_, .head _, rfl, "", by simp⟩
  | cons f files ih =>
    unfold addToFile
    split
    · rename_i hf
      exact ⟨_, .head _, hf, f.text, rfl⟩
    · obtain ⟨g, hg, hwritten⟩ := ih
      exact ⟨g, .tail _ hg, hwritten⟩

/-- A logger with a level of its own lets pass what is at or above that. -/
theorem emits_of_level (w : World) {r : LogRecord} {n : Int} (hlevel : w.level r.logger = n)
    (hset : n ≠ Level.unset) (hn : n ≤ r.level) : w.emits r = true := by
  have hthreshold : w.threshold r.logger = n := by
    rw [threshold, Logger.upwards, List.map_cons, hlevel, List.find?_cons_of_pos (by simpa using hset)]
    rfl
  rw [emits, hthreshold]
  exact decide_eq_true hn

theorem files_post (w : World) {p : Posting} (he : w.emits p.record = true) :
    (w.post p).files = (w.write p.record).files := by
  unfold post
  rw [if_pos he]
  split <;> rfl

/-- What is posted to a channel with one file is the last that the file says. -/
theorem exists_written (w : World) {p : Posting} {h : FileHandler}
    (hp : p.record.logger = Logger.channel (channelSlug name)) (he : w.emits p.record = true)
    (hfiles : w.filesOf (channelSlug name) = [h]) :
    ∃ f ∈ (w.post p).files, f.handler = h ∧ ∃ text, f.text = text ++ p.record.line := by
  rw [files_post w he, write, reached_eq_filesOf w hp, hfiles]
  exact exists_mem_addToFile w.files h _

/-- What is posted to a channel leaves the files of all others as they are. -/
theorem filter_post (w : World) {p : Posting} (hp : p.record.logger = Logger.channel (channelSlug name)) :
    (w.post p).files.filter (fun f => f.handler.slug != channelSlug name) =
      w.files.filter fun f => f.handler.slug != channelSlug name := by
  have hwrite : (w.write p.record).files.filter (fun f => f.handler.slug != channelSlug name) =
      w.files.filter fun f => f.handler.slug != channelSlug name := by
    rw [write, reached_eq_filesOf w hp]
    have hall : ∀ h ∈ w.filesOf (channelSlug name), h.slug = channelSlug name := fun h hh =>
      beq_iff_eq.mp (List.mem_filter.mp hh).2
    dsimp only
    -- Each handler writes to a file of this channel, whatever the files are by then.
    generalize w.filesOf (channelSlug name) = hs at hall
    generalize w.files = files
    induction hs generalizing files with
    | nil => rfl
    | cons h hs ih =>
      rw [List.foldl_cons, ih fun x hx => hall x (.tail _ hx), ← hall h (.head _)]
      exact filter_addToFile files h _
  by_cases he : w.emits p.record = true
  · rwa [files_post w he]
  · rw [post, if_neg he]

end World

end EditorClient

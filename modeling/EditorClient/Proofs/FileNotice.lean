import EditorClient.Proofs.Account
import EditorClient.Proofs.FileUri

/-! When the server is told of a change to a file, and what it is told. -/

namespace EditorClient

open Procedure

namespace Session

/-- The server is to be told of changes to files at this path. -/
def Tells (x : Session) (path : Path) : Prop :=
  (∃ glob ∈ x.options.watchGlobs, path.matchesGlob? glob = some true) ∧
    x.initialized = true ∧ x.stopped = false

theorem isWatched_eq {path : Path} {globs : List String}
    (h : ∀ glob ∈ globs, (Path.ofChars (dropAnyDirectory glob.toList)).parts ≠ []) :
    isWatched path globs = .ok (globs.any fun glob => path.matchesGlob? glob == some true) := by
  induction globs with
  | nil => rfl
  | cons glob globs ih =>
    obtain ⟨hglob, hglobs⟩ := List.forall_mem_cons.mp h
    have hsome : path.matchesGlob? glob ≠ none := by
      simp only [Path.matchesGlob?, Path.matchesPattern?]
      split
      · rename_i hnone
        exact absurd (by simpa using hnone) hglob
      · split <;> simp
    have hrest := ih hglobs
    rw [isWatched, List.any_cons]
    cases hmatch : path.matchesGlob? glob with
    | none => exact absurd hmatch hsome
    | some b =>
      cases b with
      | true => rfl
      | false => simpa using hrest

variable {respond : Call → Setting → Except Fault Reply × Setting} {s : Setting} {i : Nat}
  {x : Session}

/-- A change to a file that is watched while the session runs is told once; any other is not told. -/
theorem leads_changeFile (hx : s.world.sessions[i]? = some x) {path : Path}
    (hfile : (s.world.workingDirectory.join path).isAbsolute = true)
    (hglobs : ∀ glob ∈ x.options.watchGlobs,
      (Path.ofChars (dropAnyDirectory glob.toList)).parts ≠ []) (change : Int) :
    (changeFile i path change).Leads (.ofAccounts respond) ⟨s, []⟩ fun r a =>
      (x.Tells path → ∃ e, a.exchanges = [e] ∧
        e.call = .client i (.fileEvent (s.world.workingDirectory.join path).uri change) ∧
        r = e.result.map fun _ => true) ∧
      (¬x.Tells path → a.exchanges = [] ∧ r = .ok false) := by
  rw [changeFile, find, leads_find_bind hx, isWatched_eq hglobs, leads_bind, leads_ofExcept]
  dsimp only [onOk]
  by_cases hwatched : ∃ glob ∈ x.options.watchGlobs, path.matchesGlob? glob = some true
  · have hany : (x.options.watchGlobs.any fun glob => path.matchesGlob? glob == some true) = true := by
      simpa using hwatched
    rw [hany, if_pos rfl]
    by_cases hrunning : x.isRunning = true
    · have htells : x.Tells path := ⟨hwatched, by simpa [isRunning] using hrunning⟩
      have huri : fileUri s.world.workingDirectory path =
          .ok (s.world.workingDirectory.join path).uri := by simp [fileUri, hfile]
      have hmade := Account.exchanges_exchange respond ⟨s, []⟩
        (.client i (.fileEvent (s.world.workingDirectory.join path).uri change))
      rw [if_pos hrunning, leads_bind, leads_ask]
      dsimp only [onOk]
      rw [leads_bind, leads_ofExcept]
      change onOk _ _ (fileUri s.world.workingDirectory path) _
      rw [huri]
      dsimp only [onOk]
      rw [leads_bind, request, leads_bind, leads_exchange]
      cases hr : (Account.made respond ⟨s, []⟩
          (.client i (.fileEvent (s.world.workingDirectory.join path).uri change))).result with
      | ok reply =>
        exact ⟨fun _ => ⟨_, hmade, rfl, by rw [hr]; rfl⟩, fun h => absurd htells h⟩
      | error f =>
        exact ⟨fun _ => ⟨_, hmade, rfl, by rw [hr]; rfl⟩, fun h => absurd htells h⟩
    · have htells : ¬x.Tells path := fun h => hrunning (by simpa [isRunning] using h.2)
      rw [if_neg hrunning]
      exact ⟨fun h => absurd h htells, fun _ => ⟨rfl, rfl⟩⟩
  · have hany : (x.options.watchGlobs.any fun glob => path.matchesGlob? glob == some true) = false := by
      simpa using hwatched
    rw [hany, if_neg Bool.false_ne_true]
    exact ⟨fun h => absurd h.1 hwatched, fun _ => ⟨rfl, rfl⟩⟩

/-- The server is told of a change just if some glob of the session matches the path and the session
runs, and then once and of this change only; the answer is yes if the client took it. The file's URI reads
back as the path in the working directory, so that no two files have the same one. -/
theorem changeFile_course (respond : Call → Setting → Except Fault Reply × Setting) (s : Setting)
    (i : Nat) (x : Session) (directory text : String) (change : Int)
    (hx : s.world.sessions[i]? = some x)
    (hdirectory : s.world.workingDirectory = Path.ofString directory)
    (habs : (Path.ofString directory).isAbsolute = true)
    (hglobs : ∀ glob ∈ x.options.watchGlobs,
      (Path.ofChars (dropAnyDirectory glob.toList)).parts ≠ []) :
    let path := Path.ofString text
    let file := (Path.ofString directory).join path
    let result := ((changeFile i path change).run respond s).1
    let exchanges := (changeFile i path change).exchanges respond s
    (x.Tells path → ∃ e, exchanges = [e] ∧ e.call = .client i (.fileEvent file.uri change) ∧
      result = e.result.map fun _ => true) ∧
    (¬x.Tells path → exchanges = [] ∧ result = .ok false) ∧
    (∃ rest, file.uri = "file://" ++ String.ofList rest ∧
      percentDecode rest = file.chars.flatMap String.utf8EncodeChar ∧
      readUtf8 (percentDecode rest) = file.chars) ∧
    ∀ directory' text' : String, (Path.ofString directory').isAbsolute = true →
      (Path.ofString directory').join (Path.ofString text') ≠ file →
      ((Path.ofString directory').join (Path.ofString text')).uri ≠ file.uri := by
  intro path file result exchanges
  have hfile : file.isAbsolute = true := Path.isAbsolute_join habs path
  have htold : (changeFile i path change).Leads (.ofAccounts respond) ⟨s, []⟩ _ :=
    leads_changeFile hx (by rw [hdirectory]; exact hfile) hglobs change
  rw [leads_runs, exchanges_deeds, hdirectory] at htold
  refine ⟨htold.1, htold.2, file.uri_eq, fun directory' text' habs' hne huri => hne ?_⟩
  have hnormal : ∀ d t, ((Path.ofString d).join (Path.ofString t)).IsNormal := fun d t =>
    (Path.isNormal_ofString d).join (Path.isNormal_ofString t)
  exact Path.uri_injective (hnormal directory' text') (hnormal directory text)
    (Path.isAbsolute_join habs' _) hfile huri

/-- A session that runs, in a directory with a sign that is no plain character of a URI. -/
def watchingSetting : Setting :=
  Step.leaveAll 9 9
    [.newSession (.text "s") (.socket loopbackHost 2087) SessionOptions.standard, .startSession 1]
    (.start "/50% é" (.refused "logs" (.raised .os "")) .empty)

theorem changeFile_course_of_watched :
    let s := watchingSetting
    let path := Path.ofString "../#/.clientrc"
    let exchanges := (changeFile 0 path 2).exchanges (Call.respond (Step.leave 9 9)) s
    ∃ e, exchanges = [e] ∧
      e.call = .client 0 (.fileEvent ((Path.ofString "/50% é").join path).uri 2) := by
  intro s path exchanges
  obtain ⟨x, hx, hoptions, hinit, hlive⟩ : ∃ x, s.world.sessions[0]? = some x ∧
      x.options = SessionOptions.standard ∧ x.initialized = true ∧ x.stopped = false :=
    ⟨_, rfl, rfl, rfl, rfl⟩
  have hglobs : ∀ glob ∈ x.options.watchGlobs,
      (Path.ofChars (dropAnyDirectory glob.toList)).parts ≠ [] := by
    rw [hoptions]
    decide
  have htells : x.Tells path := by
    refine ⟨?_, hinit, hlive⟩
    rw [hoptions]
    exact ⟨"**/.clientrc", by decide, by decide⟩
  have hcourse := changeFile_course (Call.respond (Step.leave 9 9)) s 0 x "/50% é" "../#/.clientrc" 2
    hx rfl (by decide) hglobs
  obtain ⟨e, he, hcall, _⟩ := hcourse.1 htells
  exact ⟨e, he, hcall⟩

example : ((Path.ofString "/50% é").join (Path.ofString "../#/.clientrc")).uri =
    "file:///50%25%20%C3%A9/../%23/.clientrc" := by decide

end Session

end EditorClient

import EditorClient.Proofs.FileNotice
import EditorClient.Proofs.SideBySide

/-! The globs that a session watches, as a list. Neither their order nor how often each is there makes a
difference, unless one of them has no part that a path could match. -/

namespace EditorClient

open Procedure

/-- The session watches by these globs. -/
def Session.watching (x : Session) (globs : List String) : Session :=
  { x with options := { x.options with watchGlobs := globs } }

def World.rewatched (w : World) (i : Nat) (globs : List String) : World :=
  w.modifySession i fun x => x.watching globs

def Setting.rewatched (s : Setting) (i : Nat) (globs : List String) : Setting :=
  { s with world := s.world.rewatched i globs }

/-- The same update of a world but for the globs, or the same call in a setting that is the same but for
them. -/
inductive Deed.Rewatched (i : Nat) (globs : List String) : Deed → Deed → Prop
  | update (before after : World) : Deed.Rewatched i globs (.update before after)
      (.update (before.rewatched i globs) (after.rewatched i globs))
  | exchange {e e' : Exchange} (hcall : e'.call = e.call)
      (hbefore : e'.before = e.before.rewatched i globs) :
      Deed.Rewatched i globs (.exchange e) (.exchange e')

/-- Were the session to watch by these globs, the procedure would answer the same and do the same. -/
structure Procedure.Disregards {α : Type}
    (respond : Call → Setting → Except Fault Reply × Setting) (p : Procedure α) (s : Setting) (i : Nat)
    (globs : List String) : Prop where
  answer : (p.run respond (s.rewatched i globs)).1 = (p.run respond s).1
  deeds : List.Forall₂ (Deed.Rewatched i globs) (p.deeds respond s)
    (p.deeds respond (s.rewatched i globs))

namespace Path

theorem matchesGlob?_eq_none_iff {path : Path} {glob : String} :
    path.matchesGlob? glob = none ↔ (ofChars (dropAnyDirectory glob.toList)).parts = [] := by
  unfold matchesGlob? matchesPattern?
  split
  · rename_i h
    exact ⟨fun _ => by simpa using h, fun _ => rfl⟩
  · rename_i h
    refine ⟨fun hnone => ?_, fun hparts => absurd (by simp [hparts]) h⟩
    split at hnone <;> cases hnone

end Path

namespace Session

variable {path : Path} {globs : List String}

/-- The search for a glob that matches fails at one without parts, if it comes so far. -/
theorem isWatched_eq_error_iff {f : Fault} :
    isWatched path globs = .error f ↔ f = .emptyGlob ∧ ∃ front glob back,
      globs = front ++ glob :: back ∧ path.matchesGlob? glob = none ∧
        ∀ g ∈ front, path.matchesGlob? g = some false := by
  induction globs with
  | nil => simp [isWatched]
  | cons glob globs ih =>
    simp only [isWatched, List.cons_eq_append_iff]
    cases hmatch : path.matchesGlob? glob with
    | none =>
      constructor
      · intro h
        exact ⟨(Except.error.inj h).symm, [], glob, globs, .inl ⟨rfl, rfl⟩, hmatch, by simp⟩
      · rintro ⟨rfl, _⟩
        rfl
    | some b =>
      cases b with
      | true =>
        refine ⟨fun h => absurd h (by simp), ?_⟩
        rintro ⟨-, front, glob', back, ⟨rfl, hglobs⟩ | ⟨front, rfl, rfl⟩, hnone, hfront⟩
        · obtain ⟨rfl, -⟩ := List.cons.inj hglobs
          simp [hmatch] at hnone
        · simp [hmatch] at hfront
      | false =>
        dsimp only
        rw [ih]
        constructor
        · rintro ⟨rfl, front, glob', back, rfl, hnone, hfront⟩
          exact ⟨rfl, glob :: front, glob', back, .inr ⟨front, rfl, rfl⟩, hnone,
            List.forall_mem_cons.mpr ⟨hmatch, hfront⟩⟩
        · rintro ⟨rfl, front, glob', back, ⟨rfl, hglobs⟩ | ⟨front, rfl, rfl⟩, hnone, hfront⟩
          · obtain ⟨rfl, -⟩ := List.cons.inj hglobs
            simp [hmatch] at hnone
          · exact ⟨rfl, front, glob', back, rfl, hnone, (List.forall_mem_cons.mp hfront).2⟩

/-- What is done about a change once it is known whether its file is watched. -/
def report (i : Nat) (x : Session) (path : Path) (change : Int) (watched : Except Fault Bool) :
    Procedure Bool := do
  if ← Procedure.ofExcept watched then
    if x.isRunning then do
      let uri ← Procedure.ofExcept (fileUri (← Procedure.ask (·.workingDirectory)) path)
      request i (.fileEvent uri change)
      pure true
    else do
      Procedure.remark (.changeDropped x.name path)
      pure false
  else pure false

section Report

variable (respond : Call → Setting → Except Fault Reply × Setting) {s : Setting} (i : Nat) {x : Session}
  (change : Int)

theorem deeds_find_bind {α : Type} (k : Session → Procedure α) (hx : s.world.sessions[i]? = some x) :
    (find i >>= k).deeds respond s = (k x).deeds respond s := by
  have hrun : (find i).run respond s = (.ok x, s) := run_find hx
  have hdeeds : (find i).deeds respond s = [] := by
    simp only [find, Procedure.find, deeds, hx]
  rw [deeds_bind_of_ok hrun, hdeeds, List.nil_append]

theorem run_changeFile (path : Path) (hx : s.world.sessions[i]? = some x) :
    (changeFile i path change).run respond s =
      (report i x path change (isWatched path x.options.watchGlobs)).run respond s :=
  run_bind_of_ok _ (run_find hx)

theorem deeds_changeFile (path : Path) (hx : s.world.sessions[i]? = some x) :
    (changeFile i path change).deeds respond s =
      (report i x path change (isWatched path x.options.watchGlobs)).deeds respond s :=
  deeds_find_bind respond i _ hx

theorem report_of_running (hrunning : x.isRunning = true)
    (hfile : (s.world.workingDirectory.join path).isAbsolute = true) :
    let c : Call := .client i (.fileEvent (s.world.workingDirectory.join path).uri change)
    ((report i x path change (.ok true)).run respond s).1 = (respond c s).1.map (fun _ => true) ∧
      (report i x path change (.ok true)).deeds respond s =
        [.exchange ⟨c, s, (respond c s).1, (respond c s).2⟩] := by
  intro c
  have huri : fileUri s.world.workingDirectory path =
      .ok (s.world.workingDirectory.join path).uri := by simp [fileUri, hfile]
  have hreport : (report i x path change (.ok true)).Leads (.ofAccounts respond) ⟨s, []⟩ fun r a =>
      r = (respond c s).1.map (fun _ => true) ∧
        a.deeds = [.exchange ⟨c, s, (respond c s).1, (respond c s).2⟩] := by
    rw [report, leads_bind, leads_ofExcept]
    dsimp only [onOk]
    rw [if_pos rfl, if_pos hrunning, leads_bind, leads_ask]
    dsimp only [onOk]
    rw [leads_bind, leads_ofExcept]
    change onOk _ _ (fileUri s.world.workingDirectory path) _
    rw [huri]
    dsimp only [onOk]
    rw [leads_bind, request, leads_bind, leads_exchange]
    change onOk _ _ (respond c s).1 _
    cases hr : (respond c s).1 with
    | ok reply => exact ⟨rfl, by rw [← hr]; rfl⟩
    | error f => exact ⟨rfl, by rw [← hr]; rfl⟩
  exact (leads_runs _ s _).mp hreport

theorem report_of_not_running (hrunning : ¬x.isRunning = true) :
    report i x path change (.ok true) =
      Procedure.remark (.changeDropped x.name path) >>= fun _ => pure false := by
  rw [report]
  exact if_neg hrunning

/-- Once it is known whether the file is watched, the globs are not looked at again. -/
theorem report_disregards (globs : List String) (b : Bool)
    (hfile : (s.world.workingDirectory.join path).isAbsolute = true)
    (hclient : ∀ uri t, t.script = s.script →
      ∃ reply, (respond (.client i (.fileEvent uri change)) t).1 = .ok reply) :
    (∃ told, ((report i x path change (.ok b)).run respond s).1 = .ok told) ∧
      (report i x path change (.ok b)).Disregards respond s i globs := by
  cases b with
  | false => exact ⟨⟨false, rfl⟩, rfl, .nil⟩
  | true =>
    by_cases hrunning : x.isRunning = true
    · have hfile' : ((s.rewatched i globs).world.workingDirectory.join path).isAbsolute = true := hfile
      obtain ⟨hanswer, hdeeds⟩ := report_of_running respond i change hrunning hfile
      obtain ⟨hanswer', hdeeds'⟩ := report_of_running respond i change hrunning hfile'
      let uri := (s.world.workingDirectory.join path).uri
      obtain ⟨reply, hreply⟩ := hclient uri s rfl
      obtain ⟨reply', hreply'⟩ := hclient uri (s.rewatched i globs) rfl
      refine ⟨⟨true, by rw [hanswer, hreply]; rfl⟩, ?_, ?_⟩
      · have htold := congrArg (Except.map fun _ : Reply => true) hreply'
        rw [hanswer, hanswer', hreply]
        exact htold
      · rw [hdeeds, hdeeds']
        exact .cons (.exchange rfl rfl) .nil
    · rw [report_of_not_running i change hrunning]
      exact ⟨⟨false, rfl⟩, rfl, .cons (.update s.world _) .nil⟩

end Report

theorem isWatched_congr (path : Path) {globs globs' : List String}
    (h : ∀ glob, glob ∈ globs' ↔ glob ∈ globs)
    (hglobs : ∀ glob ∈ globs, (Path.ofChars (dropAnyDirectory glob.toList)).parts ≠ []) :
    isWatched path globs' = isWatched path globs := by
  rw [isWatched_eq hglobs, isWatched_eq fun glob hmem => hglobs glob ((h glob).mp hmem)]
  congr 1
  rw [Bool.eq_iff_iff]
  simp [h]

section Change

variable (respond : Call → Setting → Except Fault Reply × Setting) {s : Setting} {i : Nat} {x : Session}
  {change : Int}

theorem getElem?_sessions_rewatched (hx : s.world.sessions[i]? = some x) (globs : List String) :
    (s.rewatched i globs).world.sessions[i]? = some (x.watching globs) := by
  simp [Setting.rewatched, World.rewatched, World.modifySession, hx]

theorem run_changeFile_rewatched (hx : s.world.sessions[i]? = some x) (path : Path) (globs : List String) :
    (changeFile i path change).run respond (s.rewatched i globs) =
      (report i x path change (isWatched path globs)).run respond (s.rewatched i globs) :=
  run_changeFile respond i change path (getElem?_sessions_rewatched hx globs)

theorem changeFile_disregards (hx : s.world.sessions[i]? = some x)
    (hfile : (s.world.workingDirectory.join path).isAbsolute = true)
    (hclient : ∀ uri t, t.script = s.script →
      ∃ reply, (respond (.client i (.fileEvent uri change)) t).1 = .ok reply)
    (hglobs : ∀ glob ∈ x.options.watchGlobs, (Path.ofChars (dropAnyDirectory glob.toList)).parts ≠ [])
    (hsame : ∀ glob, glob ∈ globs ↔ glob ∈ x.options.watchGlobs) :
    (∃ told, ((changeFile i path change).run respond s).1 = .ok told) ∧
      (changeFile i path change).Disregards respond s i globs := by
  have hrun := run_changeFile respond i change path hx
  have hdeeds := deeds_changeFile respond i change path hx
  have hdeeds' : (changeFile i path change).deeds respond (s.rewatched i globs) =
      (report i x path change (isWatched path globs)).deeds respond (s.rewatched i globs) :=
    deeds_changeFile respond i change path (getElem?_sessions_rewatched hx globs)
  have hwatched : isWatched path x.options.watchGlobs = .ok _ := isWatched_eq hglobs
  have hcongr := isWatched_congr path hsame hglobs
  obtain ⟨htold, hanswer, halike⟩ := report_disregards (x := x) respond i change globs _ hfile hclient
  rw [hwatched] at hrun hdeeds
  refine ⟨by rw [hrun]; exact htold, ?_, ?_⟩
  · rw [hrun, run_changeFile_rewatched respond hx, hcongr, hwatched]
    exact hanswer
  · rw [hdeeds, hdeeds', hcongr, hwatched]
    exact halike

theorem parts_ne_nil_of_disregards (hx : s.world.sessions[i]? = some x)
    (htold : ∃ told, ((changeFile i path change).run respond s).1 = .ok told)
    (hall : ∀ globs, (∀ glob, glob ∈ globs ↔ glob ∈ x.options.watchGlobs) →
      (changeFile i path change).Disregards respond s i globs) :
    ∀ glob ∈ x.options.watchGlobs, (Path.ofChars (dropAnyDirectory glob.toList)).parts ≠ [] := by
  intro glob hmem hparts
  obtain ⟨told, htold⟩ := htold
  -- with the glob in the first place nothing can match before it
  have hsame := (hall (glob :: x.options.watchGlobs) (by simp [hmem])).answer
  have hfail : isWatched path (glob :: x.options.watchGlobs) = .error .emptyGlob := by
    rw [isWatched, Path.matchesGlob?_eq_none_iff.mpr hparts]
  rw [htold, run_changeFile_rewatched respond hx, hfail] at hsame
  cases hsame

theorem changeFile_eq_error_iff (hx : s.world.sessions[i]? = some x)
    (hfile : (s.world.workingDirectory.join path).isAbsolute = true)
    (hclient : ∀ uri t, t.script = s.script →
      ∃ reply, (respond (.client i (.fileEvent uri change)) t).1 = .ok reply) (f : Fault) :
    ((changeFile i path change).run respond s).1 = .error f ↔
      isWatched path x.options.watchGlobs = .error f := by
  rw [run_changeFile respond i change path hx]
  cases isWatched path x.options.watchGlobs with
  | error g =>
    exact ⟨fun h => congrArg _ (Except.error.inj h), fun h => congrArg _ (Except.error.inj h)⟩
  | ok b =>
    obtain ⟨told, htold⟩ := (report_disregards (x := x) respond i change [] b hfile hclient).1
    rw [htold]
    simp

end Change

/-- Just if each glob of a session has a part does the report of a change come to an answer, and to the same
one, with the same deeds, in whatever order the globs are and however often each is there. It fails just
if a glob without parts comes before every one that matches, and in no other way. -/
theorem changeFile_ordered_iff (respond : Call → Setting → Except Fault Reply × Setting) (s : Setting)
    (i : Nat) (x : Session) (path : Path) (change : Int) (hx : s.world.sessions[i]? = some x)
    (hdirectory : s.world.workingDirectory.isAbsolute = true)
    (hclient : ∀ uri t, t.script = s.script →
      ∃ reply, (respond (.client i (.fileEvent uri change)) t).1 = .ok reply) :
    let tell := changeFile i path change
    ((∃ told, (tell.run respond s).1 = .ok told) ∧
        (∀ globs, (∀ glob, glob ∈ globs ↔ glob ∈ x.options.watchGlobs) →
          tell.Disregards respond s i globs) ↔
      ∀ glob ∈ x.options.watchGlobs, (Path.ofChars (dropAnyDirectory glob.toList)).parts ≠ []) ∧
    ∀ f, (tell.run respond s).1 = .error f ↔ f = .emptyGlob ∧ ∃ front glob back,
      x.options.watchGlobs = front ++ glob :: back ∧
        (Path.ofChars (dropAnyDirectory glob.toList)).parts = [] ∧
        ∀ g ∈ front, path.matchesGlob? g = some false := by
  intro tell
  have hfile : (s.world.workingDirectory.join path).isAbsolute = true :=
    Path.isAbsolute_join hdirectory path
  refine ⟨⟨fun h => parts_ne_nil_of_disregards respond hx h.1 h.2, fun hglobs => ?_⟩, fun f => ?_⟩
  · have hdisregards (globs : List String) (hsame : ∀ glob, glob ∈ globs ↔ glob ∈ x.options.watchGlobs) :=
      changeFile_disregards respond hx hfile hclient hglobs hsame
    exact ⟨(hdisregards _ fun _ => Iff.rfl).1, fun globs hsame => (hdisregards globs hsame).2⟩
  · rw [changeFile_eq_error_iff respond hx hfile hclient, isWatched_eq_error_iff]
    simp only [Path.matchesGlob?_eq_none_iff]

/-- A session that runs and watches by these globs. -/
def watchedSetting (globs : List String) : Setting :=
  Step.leaveAll 9 9
    [.newSession (.text "s") (.socket loopbackHost 2087)
      { SessionOptions.standard with watchGlobs := globs }, .startSession 1]
    (.start "/work/space" (.refused "logs" (.raised .os "")) .empty)

theorem changeFile_ordered_iff_of_two :
    let globs := ["**/.clientrc", "lab/*.mfd"]
    let s := watchedSetting globs
    let tell := changeFile 0 (Path.ofString "data/lab/book.mfd") 2
    (∃ told, (tell.run (Call.respond (Step.leave 9 9)) s).1 = .ok told) ∧
      ∀ globs', (∀ glob, glob ∈ globs' ↔ glob ∈ globs) →
        tell.Disregards (Call.respond (Step.leave 9 9)) s 0 globs' := by
  intro globs s tell
  have hsession : s.world.sessions[0]?.map (·.options.watchGlobs) = some globs := by decide +kernel
  have hplain : (s.script.next .fileEvent).fault.isNone = true := by decide +kernel
  have hdirectory : s.world.workingDirectory.isAbsolute = true := by decide +kernel
  obtain ⟨x, hx, hwatched⟩ := Option.map_eq_some_iff.mp hsession
  clear_value s
  have hclient (uri : String) (t : Setting) (ht : t.script = s.script) :
      ∃ reply, (Call.respond (Step.leave 9 9) (.client 0 (.fileEvent uri 2)) t).1 = .ok reply := by
    have hnone := Option.isNone_iff_eq_none.mp hplain
    simp [Call.respond, Call.react, Call.queue?, Request.queue, ht, hnone]
  have hh := changeFile_ordered_iff (Call.respond (Step.leave 9 9)) s 0 x
    (Path.ofString "data/lab/book.mfd") 2 hx hdirectory hclient
  rw [hwatched] at hh
  exact hh.1.mpr (by decide)

/-- A glob that only stands for any directory has no part once that is left out. Whether the report of a
change fails hangs on its place. -/
theorem exists_place_matters :
    let tell := changeFile 0 (Path.ofString "a.txt") 2
    let s := watchedSetting ["**/", "*.txt"]
    (∃ x, s.world.sessions[0]? = some x ∧ x.isRunning = true) ∧
      (tell.run (Call.respond (Step.leave 9 9)) s).1 = .error .emptyGlob ∧
      (tell.run (Call.respond (Step.leave 9 9)) (s.rewatched 0 ["*.txt", "**/"])).1 = .ok true :=
  ⟨⟨_, rfl, rfl⟩, rfl, rfl⟩

end Session

end EditorClient

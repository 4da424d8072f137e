import EditorClient.Proofs.CheckedServer
import EditorClient.Proofs.FileUri

/-! The server that an activation spawns. -/

namespace EditorClient

open Procedure

namespace Path

variable {p : Path}

theorem isNormal_serverDirectory (h : p.IsNormal) : (serverDirectory p).IsNormal where
  split := by
    have hnames : ∀ name ∈ serverDirectoryNames, '/' ∉ name := by decide
    exact List.forall_mem_append.mpr ⟨h.split, hnames⟩
  names := by
    have hnames : ∀ name ∈ serverDirectoryNames, isName name = true := by decide
    exact List.forall_mem_append.mpr ⟨h.names, hnames⟩

theorem parts_serverDirectory (p : Path) :
    (serverDirectory p).parts = p.parts ++ ["..".toList, "medford-language-server".toList] := by
  have habs : (serverDirectory p).isAbsolute = p.isAbsolute := rfl
  rw [parts, parts, habs]
  split <;> rfl

end Path

/-- A server to be spawned as the settings say: by the interpreter, and in the directory that goes with the
extension. -/
def Context.Directs (x : Context) (server : String) : Transport → Prop
  | .socket .. => True
  | .spawn command args directory =>
    x.interpreter = .ok command ∧ args = ["-m", server] ∧
      ∃ path, x.path.toPath = .ok path ∧ directory = serverDirectory path
  | .foreign _ => False

namespace Bootstrap

variable {respond : Call → Setting → Except Fault Reply × Setting} {x : Context} {path : Path}

theorem yields_prepareSpawn_directed (hpath : x.path.toPath = .ok path) (config : Config) (a : Account) :
    (prepareSpawn config x path).Yields (.ofAccounts respond) a fun t _ => x.Directs config.server t := by
  have hsetting : (ofExcept x.interpreter).Yields (.ofAccounts respond) a
      fun v _ => x.interpreter = .ok v := (leads_ofExcept _).mpr fun _ h => h
  refine hsetting.bind fun v a₁ hv => Yields.bind (yields_true _ _) fun _ a₂ _ => ?_
  refine (yields_selectTransport _ _ _ _ rfl).bind fun t a₃ ht => ?_
  refine Yields.bind (yields_true _ _) fun _ a₄ _ => Yields.bind (yields_true _ _) fun _ a₅ _ =>
    Yields.bind (yields_true _ _) fun _ a₆ _ => yields_pure ?_
  rw [ht.1]
  exact ⟨hv, rfl, path, hpath, rfl⟩

theorem yields_prepare_directed (hpath : x.path.toPath = .ok path) (config : Config) (a : Account) :
    (prepare config x path).Yields (.ofAccounts respond) a fun t _ => x.Directs config.server t := by
  refine Yields.bind (yields_true _ _) fun mode a₁ _ => Yields.bind (yields_true _ _) fun _ a₂ _ => ?_
  cases mode with
  | development => exact Yields.bind (yields_true _ _) fun _ a₃ _ => yields_pure trivial
  | production => exact yields_prepareSpawn_directed hpath config a₂

variable {s : Setting} {i context : Nat} {b : Bootstrap}

theorem yields_preparation_directed (hb : s.world.bootstraps[i]? = some b)
    (hx : s.world.contexts[context]? = some x) :
    (preparation i context).Yields (.ofAccounts respond) ⟨s, []⟩ fun prepared _ =>
      x.Directs b.config.server prepared.2.2 := by
  rw [Yields, preparation, find, leads_find_bind hb, Context.find, leads_find_bind hx]
  split
  · exact yields_throw _
  · rename_i path hpath
    refine Yields.bind (yields_true _ _) fun _ a₁ _ => Yields.bind
      (leads_reporting (yields_prepare_directed hpath b.config a₁) ?_) fun t a₂ ht => yields_pure ht
    intro f a' _ t ht
    cases ht

/-- An activation spawns no other server than the settings say. -/
theorem directs_of_spawned (hb : s.world.bootstraps[i]? = some b)
    (hx : s.world.contexts[context]? = some x) {y : Exchange}
    (hy : y ∈ (activate i context).exchanges respond s) {session : Nat} {command : Value}
    {args : List String} {directory : Path}
    (hcall : y.call = .client session (.startServer command args directory)) :
    x.Directs b.config.server (.spawn command args directory) := by
  obtain ⟨after, hdeeds, hafter⟩ := exists_deeds_activate respond s i context
  rw [← exchanges_deeds _ _ s, Account.mem_exchanges, hdeeds] at hy
  rcases List.mem_append.mp hy with hy | hy
  · have hpreparatory := (confined_preparation i context).deeds respond s _ hy
    rw [Deed.IsConfined, hcall] at hpreparatory
    cases hpreparatory
  · obtain ⟨prepared, hrun, hsuits⟩ := hafter y hy
    have hdirected := (leads_runs _ _ _).mp (yields_preparation_directed hb hx) prepared hrun
    rw [hcall] at hsuits
    rwa [hsuits] at hdirected

/-- The server of an activation is spawned by the very interpreter of the settings, and beside the very
directory of the extension: the path is not resolved, and it makes no difference whether the host gives
it as a path or as its text. -/
theorem activate_spawns (text : String) : ∃ directory : String,
    (Path.ofString directory).parts =
        (Path.ofString text).parts ++ ["..".toList, "medford-language-server".toList] ∧
      (Path.ofString directory).isAbsolute = (Path.ofString text).isAbsolute ∧
      ∀ (respond : Call → Setting → Except Fault Reply × Setting) (s : Setting) (i context : Nat)
        (b : Bootstrap) (x : Context) (interpreter : String),
        s.world.bootstraps[i]? = some b → s.world.contexts[context]? = some x →
        (x.path = .value (.text text) ∨ x.path = .path (.ofString text)) →
        x.interpreter = .ok (.text interpreter) →
        ∀ y ∈ (activate i context).exchanges respond s, ∀ session command args cwd,
          y.call = .client session (.startServer command args cwd) →
            command = .text interpreter ∧ args = ["-m", b.config.server] ∧ cwd.toString = directory ∧
              Path.ofString directory = cwd := by
  let path := Path.ofString text
  have hread : Path.ofString (serverDirectory path).toString = serverDirectory path :=
    (Path.isNormal_serverDirectory (Path.isNormal_ofString text)).ofString_toString
  refine ⟨(serverDirectory path).toString, ?_, ?_, ?_⟩
  · rw [hread, Path.parts_serverDirectory]
  · rw [hread]
    rfl
  · intro respond s i context b x interpreter hb hx hpath hsetting y hy session command args cwd hcall
    obtain ⟨hcommand, hargs, path', hpath', rfl⟩ := directs_of_spawned hb hx hy hcall
    have hsame : path' = path := by
      rcases hpath with hpath | hpath <;> rw [hpath] at hpath' <;> exact (Except.ok.inj hpath').symm
    subst hsame
    rw [hsetting] at hcommand
    exact ⟨(Except.ok.inj hcommand).symm, hargs, rfl, hread⟩

def unresolvedSetting (path : ExtensionPath) : Setting :=
  Step.leaveAll 9 9
    [.newContext path (.member (.text "production"))
      (.object [("python", .object [("pythonPath", .text "py")])]) .host, .newBootstrap none]
    (.unlogged .empty)

/-- A path of two slashes at the root, a dot, a parent and a slash at the end, as a text and as a path. -/
theorem activate_spawns_unresolved : ∃ directory : String,
    directory = "//ext/a/../../medford-language-server" ∧
      (∃ y ∈ (activate 0 0).exchanges (Call.respond (Step.leave 9 9))
          (unresolvedSetting (.value (.text "//ext/./a/../"))),
        y.call = .client 0 (.startServer (.text "py") ["-m", serverModule] (.ofString directory))) ∧
      ∃ y ∈ (activate 0 0).exchanges (Call.respond (Step.leave 9 9))
          (unresolvedSetting (.path (.ofString "//ext/./a/../"))),
        y.call = .client 0 (.startServer (.text "py") ["-m", serverModule] (.ofString directory)) := by
  obtain ⟨directory, -, -, hspawns⟩ := activate_spawns "//ext/./a/../"
  have hspawned (path : ExtensionPath)
      (hpath : path = .value (.text "//ext/./a/../") ∨ path = .path (.ofString "//ext/./a/../"))
      (hstart : ∃ y ∈ (activate 0 0).exchanges (Call.respond (Step.leave 9 9)) (unresolvedSetting path),
        y.call = .client 0 (.startServer (.text "py") ["-m", serverModule]
          (serverDirectory (.ofString "//ext/./a/../")))) :
      directory = "//ext/a/../../medford-language-server" ∧
        ∃ y ∈ (activate 0 0).exchanges (Call.respond (Step.leave 9 9)) (unresolvedSetting path),
          y.call = .client 0 (.startServer (.text "py") ["-m", serverModule] (.ofString directory)) := by
    obtain ⟨y, hy, hcall⟩ := hstart
    obtain ⟨-, -, hshown, hread⟩ := hspawns (Call.respond (Step.leave 9 9)) (unresolvedSetting path) 0 0
      ⟨Config.standard, none⟩ ⟨path, .mode .production, _, .host, []⟩ "py" rfl rfl hpath rfl y hy 0 _ _ _
      hcall
    refine ⟨?_, y, hy, ?_⟩
    · rw [← hshown]
      decide
    · rw [hread]
      exact hcall
  obtain ⟨hdirectory, htext⟩ :=
    hspawned _ (.inl rfl) ⟨_, List.get_mem _ ⟨2, by decide +kernel⟩, rfl⟩
  obtain ⟨-, hpath⟩ := hspawned _ (.inr rfl) ⟨_, List.get_mem _ ⟨2, by decide +kernel⟩, rfl⟩
  exact ⟨directory, hdirectory, htext, hpath⟩

end Bootstrap

end EditorClient

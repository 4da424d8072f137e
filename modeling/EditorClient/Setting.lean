import EditorClient.Procedure

/-! Following a procedure through a setting. The laws say that a sequence is followed part by
part, and that a handler takes over where its procedure failed. -/

namespace EditorClient

/-- The world and what its collaborators have yet to do. -/
structure Setting where
  world : World
  script : Script

namespace Setting

def happen (s : Setting) (e : Event) : Setting := { s with world := s.world.happen e }

end Setting

/-- Follows a procedure through a setting, with `respond` for what happens during a call. -/
def Procedure.run {α : Type} (respond : Call → Setting → Except Fault Reply × Setting) :
    Procedure α → Setting → Except Fault α × Setting
  | done a, s => (.ok a, s)
  | fail f, s => (.error f, s)
  | read next, s => (next s.world).run respond s
  | update f next, s => next.run respond { s with world := f s.world }
  | call c next, s =>
    let r := respond c s
    (next r.1).run respond r.2

namespace Procedure

variable {α β : Type} {respond : Call → Setting → Except Fault Reply × Setting}

theorem run_bind (p : Procedure α) (k : α → Procedure β) (s : Setting) :
    (p >>= k).run respond s =
      match p.run respond s with
      | (.ok a, s') => (k a).run respond s'
      | (.error f, s') => (.error f, s') := by
  change (p.bind k).run respond s = _
  induction p generalizing s with
  | done a => rfl
  | fail f => rfl
  | read next ih => exact ih s.world s
  | update f next ih => exact ih _
  | call c next ih => exact ih (respond c s).1 (respond c s).2

theorem run_recover (p : Procedure α) (h : Fault → Procedure α) (s : Setting) :
    (p.recover h).run respond s =
      match p.run respond s with
      | (.ok a, s') => (.ok a, s')
      | (.error f, s') => (h f).run respond s' := by
  induction p generalizing s with
  | done a => rfl
  | fail f => rfl
  | read next ih => exact ih s.world s
  | update f next ih => exact ih _
  | call c next ih => exact ih (respond c s).1 (respond c s).2

end Procedure

end EditorClient

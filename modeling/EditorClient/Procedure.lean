import EditorClient.World

/-! Procedures as trees of calls on collaborators, with reads and updates of the world between
them. A tree says all that its procedure may do, whatever the collaborators do during a call. -/

namespace EditorClient

/-- What a call leaves behind: only a command has an exit code and an output. -/
structure Reply where
  exitCode : Int
  output : List UInt8

inductive Procedure (α : Type) where
  | done (a : α)
  | fail (f : Fault)
  | read (next : World → Procedure α)
  | update (f : World → World) (next : Procedure α)
  | call (c : Call) (next : Except Fault Reply → Procedure α)

namespace Procedure

variable {α β : Type}

def bind : Procedure α → (α → Procedure β) → Procedure β
  | done a, k => k a
  | fail f, _ => fail f
  | read next, k => read fun w => (next w).bind k
  | update f next, k => update f (next.bind k)
  | call c next, k => call c fun r => (next r).bind k

def recover : Procedure α → (Fault → Procedure α) → Procedure α
  | done a, _ => done a
  | fail f, h => h f
  | read next, h => read fun w => (next w).recover h
  | update f next, h => update f (next.recover h)
  | call c next, h => call c fun r => (next r).recover h

instance : Monad Procedure where
  pure := done
  bind := bind

instance : MonadExceptOf Fault Procedure where
  throw := fail
  tryCatch := recover

/-- Stops ordinary faults only. -/
def recoverOrdinary (p : Procedure α) (h : Fault → Procedure α) : Procedure α :=
  p.recover fun f => if f.isOrdinary then h f else fail f

/-- Stops faults of the operating system only. -/
def recoverOs (p : Procedure α) (h : Fault → Procedure α) : Procedure α :=
  p.recover fun f => if f.isOs then h f else fail f

def ask (f : World → α) : Procedure α := read fun w => done (f w)

def change (f : World → World) : Procedure Unit := update f (done ())

def remark (r : Remark) : Procedure Unit := change (·.remark r)

def post (p : Posting) : Procedure Unit :=
  read fun w =>
    match w.refusal? p.record with
    | some fault => update (·.happen (.refused p)) (fail fault)
    | none => change (·.post p)

def happen (e : Event) : Procedure Unit := change (·.happen e)

def request (c : Call) : Procedure Reply :=
  call c fun
    | .ok reply => done reply
    | .error f => fail f

def ofExcept : Except Fault α → Procedure α
  | .ok a => done a
  | .error f => fail f

/-- The object at an index of one of the world's lists. -/
def find (sort : ObjectSort) (objects : World → List α) (i : Nat) : Procedure α :=
  read fun w =>
    match (objects w)[i]? with
    | some a => done a
    | none => fail (.missing sort (i + 1))

def index (sort : ObjectSort) (objects : World → List α) (number : Int) : Procedure Nat :=
  read fun w => ofExcept (objectIndex sort (objects w).length number)

theorem bind_done (p : Procedure α) : p.bind done = p := by
  induction p with
  | done | fail => rfl
  | read next ih => simp [bind, ih]
  | update f next ih => simp [bind, ih]
  | call c next ih => simp [bind, ih]

theorem bind_assoc {γ : Type} (p : Procedure α) (k : α → Procedure β) (l : β → Procedure γ) :
    (p.bind k).bind l = p.bind fun a => (k a).bind l := by
  induction p with
  | done | fail => rfl
  | read next ih => simp [bind, ih]
  | update f next ih => simp [bind, ih]
  | call c next ih => simp [bind, ih]

instance : LawfulMonad Procedure :=
  LawfulMonad.mk' Procedure (fun p => bind_done p) (fun _ _ => rfl) (fun p k l => bind_assoc p k l)

end Procedure

end EditorClient

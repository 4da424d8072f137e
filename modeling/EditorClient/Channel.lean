import EditorClient.Procedure

/-! Output channels. The first use of a channel that finds the log directory usable gives it a
file; later uses share the file, and a directory that cannot be used is only remarked upon. -/

namespace EditorClient

def makeLogDirectory : Procedure String := do
  Procedure.happen .askedLogDirectory
  let directory ← Procedure.ask (·.logDirectory)
  match directory.refusal with
  | none => pure directory.path
  | some fault => throw fault

def addHandler (h : FileHandler) (w : World) : World := { w with handlers := w.handlers ++ [h] }

def setLevel (logger : String) (level : Int) (w : World) : World :=
  { w with levels := (logger, level) :: w.levels }

def attachFile (name slug : String) : Procedure Unit := do
  let directory ← makeLogDirectory
  let handler : FileHandler := ⟨slug, directory⟩
  Procedure.change (addHandler handler)
  Procedure.change (setLevel (Logger.channel slug) Level.debug)
  Procedure.remark (.channelFile name handler.file)

/-- The slug of the channel, which has a file afterwards if it can have one. -/
def openChannel (name : String) : Procedure String := do
  let slug := channelSlug name
  if ← Procedure.ask (·.hasHandler slug) then pure slug
  else do
    (attachFile name slug).recoverOs fun fault => Procedure.remark (.channelWithoutFile name fault)
    pure slug

end EditorClient

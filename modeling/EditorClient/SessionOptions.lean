import EditorClient.DocumentFilter
import EditorClient.Wiring

/-! What every session carries, whatever its transport. -/

namespace EditorClient

structure SessionOptions where
  documents : List DocumentFilter
  channelName : String
  watchGlobs : List String
deriving DecidableEq, Repr

def SessionOptions.standard : SessionOptions where
  documents := [⟨"file", languageId⟩, ⟨"untitled", languageId⟩]
  channelName := "[pygls] MEDFORDLanguageServer"
  watchGlobs := ["**/.clientrc"]

end EditorClient

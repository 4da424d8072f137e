import EditorClient.Procedure

/-! Showing messages to the user. -/

namespace EditorClient

def Notifier.notify (n : Notifier) (notice : Notice) : Procedure Unit :=
  match n with
  | .host => do
    let _ ← Procedure.request (.notify notice)
    pure ()
  | .log logger => Procedure.post (.notice logger notice)
  | .absent => throw (.noAttribute Value.null.kindName notice.severity.method)

end EditorClient

import DeployCheck.Json.Tagged
import DeployCheck.Source.Span

/-!
# Spans in JSON

A span is written as an array of its start and its end.
-/

set_option autoImplicit false

namespace DeployCheck.Span

open Json

def read : Reader Span :=
  Reader.tuple fun room =>
    between <$> Form.required "start" (Reader.offset room) <*>
      Form.required "end" (Reader.offset room)

def ofValue : Value → Except ReadError Span :=
  Value.asTuple (between <$> Form.required "start" Value.asOffset <*>
    Form.required "end" Value.asOffset)

end DeployCheck.Span

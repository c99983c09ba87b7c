import LayerQuota.Failure
import LayerQuota.Json.Writer
/-!
# Writable layers

The directory that a container writes to, as the runtime reports it. The report is a text in all
but malformed answers; what it holds then is passed on as it is, and the step that cannot use it
fails.
-/

namespace LayerQuota

abbrev Layer := Json.Value

namespace Layer

def ofPath (path : String) : Layer := Json.Value.text path

def label (d : Layer) : String := d.display

/-- A report as the key of a table, which no list and no object can be. -/
def key (d : Layer) : Except Failure Layer :=
  match d with
  | .array _ | .object _ => .error (.notHashable d.kind)
  | _ => .ok d

end Layer

end LayerQuota

import DetachedSchema.Action
import DetachedSchema.Codec.Listing
import DetachedSchema.Envelope
import DetachedSchema.Settings

/-!
# Storage

How listings, settings and snapshots in their envelopes are loaded from files and saved to them.
-/

namespace DetachedSchema

/-- Loads a listing; without a format, the name of the file tells it. -/
def Listing.load (path : String) (format : Option Format) : Action Listing := do
  let format ← match format with
    | some format => pure format
    | none => Action.ofExcept (Format.ofPath path)
  let text ← Action.readFile path
  Action.ofExcept (format.read Listing.codec text)

namespace Settings

/-- Reads settings from YAML text and validates them. -/
def ofYaml (text : String) : Except Fault Settings := do
  let s ← Format.yaml.read codec text
  s.validate
  return s

/-- Loads settings as they are, so that some of them can be replaced before they are validated. -/
def loadUnchecked (path : String) : Action Settings := do
  let text ← Action.readFile path
  Action.ofExcept (Format.yaml.read codec text)

/-- Loads settings and validates them. -/
def load (path : String) : Action Settings := do
  let s ← loadUnchecked path
  Action.ofExcept s.validate
  return s

end Settings

namespace Envelope

/-- Loads an envelope and verifies it; the name of the file tells its format. -/
def load (path : String) : Action Envelope := do
  let format ← Action.ofExcept (Format.ofPath path)
  let text ← Action.readFile path
  Action.ofExcept (read format text)

/-- Saves an envelope. -/
def save (e : Envelope) (path : String) (format : Format) (isPretty : Bool) : Action Unit := do
  Action.writeFile path (e.write format isPretty)
  Action.log (.wroteSnapshot e.fingerprint path)

end Envelope

end DetachedSchema

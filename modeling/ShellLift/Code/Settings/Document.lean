import ShellLift.Code.Settings
import ShellLift.Toml.Document

/-!
# Settings from a document

A document can give any of the settings under its name. What it does not give is left as it is,
and names that are not settings mean nothing.
-/

set_option autoImplicit false

namespace ShellLift.Settings

open Toml

def string? : Node → Option Text
  | .scalar (.string content) => some content
  | _ => none

def boolean? : Node → Option Bool
  | .scalar (.boolean content) => some content
  | _ => none

def strings? : Node → Option (List Text)
  | .array items => items.mapM string?
  | _ => none

/-- The content of an entry in a form, or what stands for a missing entry. An entry of another
form is refused. -/
def field {α : Type} (read? : Node → Option α) (entries : Entries) (key : String) (missing : α) :
    Option α :=
  match entries.get? key.toList with
  | some node => read? node
  | none => some missing

def ofEntries? (entries : Entries) : Option Settings := do
  let strict ← field boolean? entries "strict_env_types" initial.strictTypes
  let pathLike ← field strings? entries "other_path_like_vars" initial.pathLike
  let runtimeModule ← field string? entries "runtime_module" initial.runtimeModule
  let preamble ← field boolean? entries "emit_preamble" initial.emitsPreamble
  pure ⟨strict, Text.nameSet pathLike, runtimeModule, preamble⟩

/-- The settings that a document gives; nothing if it is malformed. -/
def ofDocument? (document : Text) : Option Settings := (Toml.parse? document).bind ofEntries?

end ShellLift.Settings

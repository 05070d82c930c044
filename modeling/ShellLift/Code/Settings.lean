import ShellLift.Text.Basic

/-!
# Settings

What a caller can choose about the emitted code.
-/

set_option autoImplicit false

namespace ShellLift

structure Settings where
  strictTypes : Bool
  /-- Variables that hold a path list though their name does not say so, in ascending order. -/
  pathLike : List Text
  runtimeModule : Text
  emitsPreamble : Bool
deriving DecidableEq

namespace Settings

def initial : Settings :=
  ⟨false, ["BASH_COMPLETIONS".toList], "zsh2xonsh.runtime".toList, false⟩

/-- The variable holds a path list, by the end of its name or by choice. -/
def isPathLike (settings : Settings) (name : Text) : Bool :=
  "PATH".toList.isSuffixOf name || settings.pathLike.contains name

def keepsType (settings : Settings) (name : Text) : Bool :=
  settings.strictTypes || settings.isPathLike name

def addPathLike (settings : Settings) (names : List Text) : Settings :=
  let all := names.foldl (fun set name => Text.insertName name set) settings.pathLike
  { settings with pathLike := all }

end Settings

end ShellLift

import Shorthand.Table

/-! # The location of the settings file

The settings file lies in the directory for settings that the environment names, else in a directory below the
home directory. Paths are written without empty parts and without parts that stand for the directory they are in;
parts that lead upwards stay as they are.

* **`Location.clean`** — a path without superfluous parts.
* **`Settings.location`** — the path of the settings file. -/

namespace Shorthand

namespace Location

/-- The parts of a path between its slashes. -/
def parts (path : Text) : List Text := path.splitOn '/'

/-- Whether a part of a path leads anywhere. -/
def isStep (part : Text) : Bool := part ≠ [] && part ≠ ['.']

/-- What a path begins with: nothing if it is relative, else one slash. Exactly two slashes are a root of their
own. -/
def root (path : Text) : Text :=
  match (path.takeWhile (· == '/')).length with
  | 0 => []
  | 2 => ['/', '/']
  | _ => ['/']

/-- The path that leads on from a path by the given steps, without superfluous parts. -/
def below (path : Text) (steps : List Text) : Text :=
  root path ++ Text.joined ['/'] ((parts path).filter isStep ++ steps)

/-- A home directory as it is named, without slashes at its end; the root keeps its slash. -/
def home (named : Text) : Text :=
  match (named.reverse.dropWhile (· == '/')).reverse with
  | [] => ['/']
  | path => path

@[simp] theorem root_nil : root [] = [] := rfl

/-- A relative path stays relative. -/
theorem root_eq_nil_of_head_ne {c : Char} (h : c ≠ '/') (rest : Text) : root (c :: rest) = [] := by
  have different : (c == '/') = false := by simpa using h
  simp [root, List.takeWhile, different]

end Location

namespace Settings

/-- The path of the settings file, by the variables of the environment. -/
def location (environment : Table Text) : Text :=
  let own := ["zentree".toList, "config.toml".toList]
  match Table.find? "XDG_CONFIG_HOME".toList environment with
  | some (c :: rest) => Location.below (c :: rest) own
  | _ =>
    Location.below (Location.home ((Table.find? "HOME".toList environment).getD []))
      (".config".toList :: own)

end Settings

end Shorthand

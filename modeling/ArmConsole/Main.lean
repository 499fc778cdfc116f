import ArmConsole.CommandLine.Run

/-!
The program: the real file system, standard output and the exit code.
-/

namespace ArmConsole.CommandLine

def FileError.ofSystem : IO.Error → FileError
  | .noFileOrDirectory .. => .notFound
  | .inappropriateType _ code _ => if code == 21 then .isDirectory else .notDirectory
  | .invalidArgument _ code text =>
    if code == 36 || code == -36 then .nameTooLong else .other text
  | e => .other (toString e)

def systemFiles : FileAccess IO where
  read path := do
    try
      return .ok (← IO.FS.readBinFile path)
    catch e => return .error (FileError.ofSystem e)
  create path := do
    try
      IO.FS.writeBinFile path .empty
      return .ok ()
    catch e => return .error (FileError.ofSystem e)

end ArmConsole.CommandLine

open ArmConsole.CommandLine in
def main (arguments : List String) : IO UInt32 := do
  match parse arguments with
  | .error e =>
    IO.eprintln s!"error: {e.message}"
    return 2
  | .ok .version =>
    IO.print versionText
    return 0
  | .ok (.run options) =>
    match ← (run systemFiles options).run with
    | .error e =>
      IO.eprintln s!"error: {e.message}"
      return e.exitCode.toUInt32
    | .ok text =>
      IO.print text
      return 0

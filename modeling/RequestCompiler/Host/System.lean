import RequestCompiler.Host
import RequestCompiler.Log.Ulid
import RequestCompiler.Text.Utf8
import Std.Time.DateTime

/-!
# The running system as a host

The files, the variables, the time and the random numbers of the process. Nothing is decided
here: every operation is one of the system's, with texts as UTF-8 and failures as faults.
-/

namespace RequestCompiler

/-- The fault that an error of the system stands for. -/
def FileFault.ofError : IO.Error → FileFault
  | .noFileOrDirectory _ _ _ => missing
  | .alreadyExists _ _ _ => alreadyExists
  | .inappropriateType _ code _ => if code = 21 then isDirectory else notDirectory
  | .permissionDenied _ _ _ => other "EACCES"
  | .resourceExhausted _ _ _ => other "ENOSPC"
  | .invalidArgument _ _ _ => other "EINVAL"
  | _ => other "EIO"

namespace Host

/-- The outcome of an operation on what a path leads to. -/
def attempt {α : Type} (path : Text) (act : String → IO α) : IO (Except FileFault α) := do
  if Path.nul ∈ path then return .error .unusable
  try return .ok (← act path.toString)
  catch e => return .error (.ofError e)

/-- A text as bytes. -/
def bytes (t : Text) : ByteArray := ⟨t.utf8.toArray⟩

/-- A number with leading zeros. -/
def padded (width n : Nat) : Text :=
  let digits := Text.ofNat n
  Text.repeated (width - digits.length) '0' ++ digits

/-- The date and the time of a moment in milliseconds, in universal time. -/
def momentText (now : Std.Time.Timestamp) : Text :=
  let t := Std.Time.PlainDateTime.ofWallTime (now.toWallTime .zero)
  let part (n : Int) : Text := padded 2 n.toNat
  padded 4 t.year.toInt.toNat ++ "-" ++ part t.month.val ++ "-" ++ part t.day.val ++ "T"
    ++ part t.hour.val ++ ":" ++ part t.minute.val ++ ":" ++ part t.second.val ++ "."
    ++ padded 3 (t.nanosecond.val.toNat / 1000000) ++ "Z"

instance : Host IO where
  readFile path := attempt path fun p => do
    return Text.ofUtf8 (← IO.FS.readBinFile p).toList
  appendFile path text := attempt path fun p =>
    IO.FS.withFile p .append fun file => file.write (bytes text)
  makeDirectories path := attempt path fun p => IO.FS.createDirAll p
  pathExists path := do
    return (← attempt path fun p => IO.FS.realPath p).toOption.isSome
  variableValue? name := do return (← IO.getEnv name.toString).map Text.ofString
  directory := do return Text.ofString (← IO.currentDir).toString
  userHome := do return ((← IO.getEnv "HOME").map Text.ofString).getD []
  timestamp := do return momentText (← Std.Time.Timestamp.now)
  freshId := do
    let now := (← Std.Time.Timestamp.now).toMillisecondsSinceUnixEpoch
    return Ulid.make now.val (← IO.getRandomBytes 10).toList

end Host

end RequestCompiler

import NoteClock.CommandLine.Ending
import NoteClock.Settings.Document

/-! The command line: reads the files that an invocation names, and carries its plan out for real. -/

namespace NoteClock.CommandLine

def faultOf : IO.Error → FileFault
  | .noFileOrDirectory _ _ _ => .notFound
  | .alreadyExists _ _ _ => .alreadyExists
  | .inappropriateType _ code _ => if code = 20 then .notADirectory else .isADirectory
  | .invalidArgument _ code _ => if code = 36 then .nameTooLong else .notFound
  | .permissionDenied _ _ _ => .denied
  | _ => .notFound

def leadsSomewhere (path : String) : IO Bool := do
  try
    let _ ← IO.FS.realPath path
    return true
  catch _ => return false

def readFile (path : String) : IO (Except FileFault ByteArray) := do
  try
    return .ok (← IO.FS.readBinFile path)
  catch error =>
    let fault := faultOf error
    if fault = .denied then return .error (if ← leadsSomewhere path then .denied else .barred)
    return .error fault

def readFiles (paths : List String) : IO Files.Reader := do
  let answers ← paths.mapM fun path => do return (path, ← readFile path)
  return fun path => (answers.lookup path).getD (.error .notFound)

def makeDirectory (path : String) : IO (Option FileFault) := do
  try
    IO.FS.createDirAll path
    return none
  catch error => return some (faultOf error)

def writeBytes (path : String) (bytes : ByteArray) : IO (Option FileFault) := do
  try
    IO.FS.writeBinFile path bytes
    return none
  catch error => return some (faultOf error)

def writeFile (path : String) (bytes : ByteArray) : IO (Option Files.WriteFault) := do
  let directory := (Path.ofString path).parent
  let fault ← if directory.parts = [] then pure none else makeDirectory (toString directory)
  match fault with
  | some fault => return some (.directory fault)
  | none => return (← writeBytes path bytes).map .file

def refuse (refusal : Refusal) : IO UInt32 := do
  (← IO.getStderr).putStr refusal.text
  return 1

partial def playOn (playback : Playback) (tick : Nat) (length : Option Nat) : IO Playback := do
  let (answer, playback) := playback.tick length (← IO.monoMsNow)
  answer.lines.forM IO.println
  (← IO.getStdout).flush
  if answer.finished then return playback
  IO.sleep (min tick 4294967295).toUInt32
  playOn playback tick length

def carryOut : Plan → IO UInt32
  | .print text => do
      IO.print text
      return 0
  | .play rules settings length => do
      IO.println Playback.opening
      let playback ← playOn (Playback.start rules) settings.tick length
      IO.println (playback.closing (← IO.monoMsNow))
      return 0
  | .render rules settings length output => do
      match renderWave rules settings length with
      | .error refusal => refuse refusal
      | .ok wave =>
          match ← writeFile output wave with
          | some fault => refuse (.reported (.unwritable fault))
          | none =>
              IO.print (savedMessage output length settings.sampleRate)
              return 0

def start (arguments : List String) : IO UInt32 := do
  match Invocation.parse arguments with
  | .error .usage => do
      IO.print usage
      return 0
  | .error .version => do
      IO.print version
      return 0
  | .error .misuse => do
      (← IO.getStderr).putStr usage
      return 2
  | .ok invocation =>
      let home := (← IO.getEnv "HOME").getD "."
      let usual := home ++ "/" ++ usualSettings
      let read ← readFiles (invocation.inputs usual)
      match invocation.plan Settings.ofText? read usual with
      | .error refusal => refuse refusal
      | .ok plan => carryOut plan

end NoteClock.CommandLine

def main (arguments : List String) : IO UInt32 := NoteClock.CommandLine.start arguments

import TestBench.CommandLine.Program

/-! # Main

Runs the program with the arguments and the environment of the process.
-/

def main (args : List String) : IO UInt32 := do
  let transcript := TestBench.CommandLine.program (← IO.getEnv "NO_COLOR") args
  (← IO.getStdout).putStr transcript.stdout
  (← IO.getStderr).putStr transcript.stderr
  return UInt32.ofNat transcript.exitCode

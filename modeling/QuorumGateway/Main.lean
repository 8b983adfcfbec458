import QuorumGateway.Harness.Run
/-!
The program as it is run: arguments, environment variables, files and random bytes in, lines and an exit code out.
-/

namespace QuorumGateway.Program

def environment : IO EnvFile.Variables := do
  let bytes ← try IO.FS.readBinFile "/proc/self/environ" catch _ => pure .empty
  return Harness.variablesOf ((String.fromUTF8? bytes).getD "")

/-- the files among the given ones that can be read -/
def files (names : List String) : IO (List (String × String)) :=
  names.filterMapM fun (name : String) => do
    try return some (name, ← IO.FS.readFile name) catch _ => return none

def print (r : Harness.Run) : IO Unit := do
  for piece in r.output do
    IO.println (piece.text r.format)
  for error in r.error do
    IO.eprintln (Harness.errorLine error)

end QuorumGateway.Program

open QuorumGateway in
def main (args : List String) : IO UInt32 := do
  let environment ← Program.environment
  let files ← Program.files (Harness.fileNames args environment)
  let bytes ← IO.getRandomBytes (USize.ofNat Harness.Chance.size)
  let r := Harness.run args (Harness.Chance.ofBytes bytes.toList) ⟨files, environment⟩
  Program.print r
  return r.exit.toUInt32

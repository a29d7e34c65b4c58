import EditionGateway.Report.State

/-!
The command line: shows the settings that a gateway runs with, which are those of the config file
that is named as the only argument, or the standard ones.
-/

namespace EditionGateway

/-- The settings to run with, given what came of reading the config file, if one was named. -/
def GatewayConfig.effective (file : Option (Except String Bytes)) :
    Except GatewayError GatewayConfig :=
  match file with
  | none => .ok ({} : GatewayConfig).validated
  | some (.ok b) => (ofFile b).map validated
  | some (.error detail) => .error (.configFile detail)

end EditionGateway

def main (args : List String) : IO UInt32 := do
  let file ← args.head?.mapM fun path => (IO.FS.readBinFile path).toBaseIO
  let bytes := file.map fun r => (r.map (·.toList)).mapError toString
  match EditionGateway.GatewayConfig.effective bytes with
  | .ok c =>
    (← IO.getStdout).write ⟨(c.report.render ++ [10]).toArray⟩
    return 0
  | .error e =>
    IO.eprintln e.message
    return 1

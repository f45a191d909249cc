import SoapPolicy.Recording

/-!
# The command line

Check a recorded message against a policy.  The arguments name a file with each.
-/

namespace SoapPolicy.CommandLine

/-- The texts of the files that the arguments name, if there are enough of them. -/
def readFiles : List String → IO (List String)
  | policyPath :: recordingPath :: _ => do
    return [← IO.FS.readFile policyPath, ← IO.FS.readFile recordingPath]
  | _ => return []

/-- The report on the files that the arguments name. -/
def report (arguments : List String) : IO Report := do
  try
    return Report.ofTexts (← readFiles arguments)
  catch _ => return Report.unreadable

end SoapPolicy.CommandLine

/-- Print the report and end with its exit code. -/
def main (arguments : List String) : IO UInt32 := do
  let report ← SoapPolicy.CommandLine.report arguments
  for line in report.lines do
    IO.eprintln line
  return UInt32.ofNat report.exitCode

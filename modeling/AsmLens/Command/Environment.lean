import AsmLens.CommandLine.Invocation
import AsmLens.Session.ReportLayout
import AsmLens.Session.Settings

namespace AsmLens.Command

open CommandLine (EnvironmentRequest)

def environment (r : EnvironmentRequest) : Act Nat := do
  let settings ← Session.start r.config
  let report ← Session.inspect settings.tools
  let console := (← get).host.console
  if r.json then Session.print (report.pageData console)
  else Session.printAll (report.pageParts console)
  return if report.issues.isEmpty then 0 else 1

def inspection (r : EnvironmentRequest) : Act Nat := do
  let settings ← Session.loadSettings r.config
  let report ← Session.inspect settings.tools
  Session.print (if r.json then report.plainData else report.plainText)
  return 0

end AsmLens.Command

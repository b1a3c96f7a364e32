import Deferred.FileTree
import Deferred.Telemetry.Report

/-!
# Exporting reports

The report on a snapshot as the text of a file. `Snapshot.exportTo` fails only where the file cannot
be written.
-/

namespace Deferred

/-- Writes the report on a snapshot to a file, new or in the place of one that is there. -/
def Snapshot.exportTo (s : Snapshot) (name : String) (files : FileTree) : Except Error FileTree :=
  match files.write name s.report with
  | .ok files => .ok files
  | .error failure => .error (.io failure)

end Deferred

import TriBench.Results
import TriBench.Json.Printer

/-!
# The structured report

The table as a JSON object: tests, then parameters as decimal texts, then the four values of the
record. A missing value is the number −1 and a reported one a text.
-/

namespace TriBench.Report

def measurementValue : Measurement → Json
  | .notMeasured => .number (.negative Measurement.sentinel)
  | .reported value => .string value

def recordValue (r : Record) : Json :=
  .ofMembers
    [("grate", measurementValue r.grate), ("lind", measurementValue r.lind),
     ("linux", measurementValue r.linux), ("loops", measurementValue r.loops)]

def resultsValue (t : Results) : Json :=
  .ofMembers <| t.entries.map fun (test, params) =>
    (test, .ofMembers <| params.entries.map fun (param, r) => (Text.ofInt param, recordValue r))

def structured (t : Results) : Text := (resultsValue t).pretty 0

end TriBench.Report

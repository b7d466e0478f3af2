import TriBench.OrderedMap
import TriBench.Measurement
import TriBench.Sample

/-!
# Results

The table of all records of a run, by test and then by parameter. An output is taken in as a whole
or not at all.
-/

namespace TriBench

abbrev Results := OrderedMap Text (OrderedMap Int Record)

namespace Results

def empty : Results := OrderedMap.empty

def record? (t : Results) (test : Text) (param : Int) : Option Record :=
  (t.get? test).bind (·.get? param)

/-- Overwrites one build's average and the iteration count in the record of the test and parameter,
which is created when it is missing. -/
def put (t : Results) (p : Platform) (test : Text) (param : Int) (average loops : Measurement) :
    Results :=
  t.alter test fun params =>
    (params.getD OrderedMap.empty).alter param fun r => (r.getD .blank).set p average loops

def putSample (p : Platform) (t : Results) (s : Sample) : Results :=
  put t p s.test s.param (.reported s.average) (.reported s.loops)

def absorb (t : Results) (p : Platform) (output : Text) : Except BatchError (Results × Nat) :=
  (Sample.parseBatch output).map fun samples => (samples.foldl (putSample p) t, samples.length)

def size (t : Results) : Nat := t.values.foldr (fun params n => params.entries.length + n) 0

def isEmpty (t : Results) : Bool := t.entries.isEmpty

def rows (t : Results) : List (Text × Int × Record) :=
  t.entries.flatMap fun e => e.2.entries.map fun r => (e.1, r.1, r.2)

end Results

end TriBench

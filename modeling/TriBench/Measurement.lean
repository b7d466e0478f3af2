import TriBench.Text.Number

/-!
# Measurements

One test with one parameter has an average time for each of the three builds and an iteration
count. Values are kept as the benchmark reported them.
-/

namespace TriBench

/-- The build that is measured: the native program, the sandboxed module, or the composite of
modules and shims. -/
inductive Platform
  | linux
  | lind
  | grate
  deriving DecidableEq, Repr

namespace Platform

def name : Platform → Text
  | linux => "linux"
  | lind => "lind"
  | grate => "grate"

end Platform

inductive Measurement
  | notMeasured
  | reported (value : Text)
  deriving DecidableEq, Repr

namespace Measurement

def sentinel : Int := -1

/-- The reported value as an integer of 64 bits; the sentinel if it is missing or not one. -/
def integer : Measurement → Int
  | notMeasured => sentinel
  | reported value => (Text.int64? value).getD sentinel

def text : Measurement → Text
  | notMeasured => Text.ofInt sentinel
  | reported value => value

end Measurement

/-- The measurements of one test with one parameter. The iteration count is that of the build
measured last. -/
structure Record where
  grate : Measurement
  lind : Measurement
  linux : Measurement
  loops : Measurement
  deriving DecidableEq, Repr

namespace Record

def blank : Record := ⟨.notMeasured, .notMeasured, .notMeasured, .notMeasured⟩

def column (r : Record) : Platform → Measurement
  | .linux => r.linux
  | .lind => r.lind
  | .grate => r.grate

def set (r : Record) (p : Platform) (average loops : Measurement) : Record :=
  match p with
  | .linux => { r with linux := average, loops := loops }
  | .lind => { r with lind := average, loops := loops }
  | .grate => { r with grate := average, loops := loops }

theorem column_set (r : Record) (p q : Platform) (a l : Measurement) :
    (r.set p a l).column q = if q = p then a else r.column q := by
  cases p <;> cases q <;> rfl

theorem loops_set (r : Record) (p : Platform) (a l : Measurement) : (r.set p a l).loops = l := by
  cases p <;> rfl

end Record

end TriBench

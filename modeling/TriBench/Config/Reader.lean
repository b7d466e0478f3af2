import TriBench.Config.Basic
import TriBench.FileSystem.Operations
import TriBench.Json.Schema

/-!
# Configuration files

A configuration file is a JSON text with the settings that differ from the defaults.
-/

namespace TriBench

open Json (Field Schema)

def Json.decodePath : Json.Decoder Path := fun v => (Json.textAs "path string" v).map Path.mk

def Tools.schema : Schema Tools where
  title := "struct Tools"
  fields :=
    [.of "native_compiler" Json.decodeText fun x t => { t with nativeCompiler := x },
     .of "sandbox_compiler" Json.decodeText fun x t => { t with sandboxCompiler := x },
     .of "sandbox_boot" Json.decodeText fun x t => { t with sandboxBoot := x },
     .of "shell" Json.decodeText fun x t => { t with shell := x },
     .of "shim_build_script" Json.decodeText fun x t => { t with shimBuildScript := x },
     .of "version_control" Json.decodeText fun x t => { t with versionControl := x },
     .of "elevation" Json.decodeText fun x t => { t with elevation := x }]

def Repository.schema : Schema Repository where
  title := "struct Repository"
  fields :=
    [.of "url" Json.decodeText fun x r => { r with url := x },
     .of "branch" Json.decodeText fun x r => { r with branch := x },
     .of "working_copy" Json.decodePath fun x r => { r with workingCopy := x }]

namespace Config

/-- Tools and repository are read over their defaults, whatever the record holds. -/
def schema : Schema Config where
  title := "struct Config"
  fields :=
    [.of "benchmark_directory" Json.decodePath fun x c => { c with benchmarkDirectory := x },
     .of "sandbox_root" Json.decodePath fun x c => { c with sandboxRoot := x },
     .of "support_sources" (Json.decodeList Json.decodeText)
       fun x c => { c with supportSources := x },
     .of "source_extension" Json.decodeText fun x c => { c with sourceExtension := x },
     .of "composite_extension" Json.decodeText fun x c => { c with compositeExtension := x },
     .of "module_extension" Json.decodeText fun x c => { c with moduleExtension := x },
     .of "shim_suffix" Json.decodeText fun x c => { c with shimSuffix := x },
     .of "composite_delimiter" Json.decodeChar fun x c => { c with compositeDelimiter := x },
     .of "tools" (Tools.schema.read {}) fun x c => { c with tools := x },
     .of "repository" (Repository.schema.read {}) fun x c => { c with repository := x },
     .of "timeout" Json.decodeNat fun x c => { c with timeout := x }]

def parse (text : Text) : Except Json.ReadError Config :=
  let (value, whole) := Json.read text
  match schema.read {} value with
  | .error e => .error e
  | .ok c => if whole then .ok c else .error .malformed

inductive LoadError
  | reading (p : Path) (cause : IoError)
  | parsing (p : Path) (cause : Json.ReadError)

def LoadError.message : LoadError → Text
  | reading p cause => "Config file " ++ p.quoted ++ " reading error: " ++ cause.message
  | parsing p (.misfit cause) =>
    "Config file " ++ p.quoted ++ " parsing error: " ++ cause.message
  | parsing p .malformed => "Config file " ++ p.quoted ++ " parsing error: malformed JSON"

def load (fs : FileSystem) (p : Path) : Except LoadError Config :=
  match fs.readText p with
  | .error e => .error (.reading p e)
  | .ok text => (parse text).mapError (.parsing p)

end Config

end TriBench

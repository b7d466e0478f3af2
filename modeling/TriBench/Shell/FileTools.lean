import TriBench.Shell.Condition
import TriBench.Shell.Filters
import TriBench.Shell.Printf

/-!
# Programs on files, names and time
-/

namespace TriBench.Shell.Utility

def true' : Utility := fun _ => return 0

def false' : Utility := fun _ => return 1

/-- The arguments with blanks between them and a line feed, which `-n` leaves away. Switches and
escapes are those of the program, unless `builtin` asks for those of the shell. -/
def echo (builtin : Bool) : Utility := fun args => do
  let isSwitch (a : Text) : Bool :=
    if builtin then a = ['-', 'n']
    else match a with
      | '-' :: c :: t => (c :: t).all (· ∈ ['n', 'e', 'E'])
      | _ => false
  let switches := if builtin then (args.take 1).filter isSwitch else args.takeWhile isSwitch
  let letters := switches.flatten
  let text := Text.joinWith [' '] (args.drop switches.length)
  let escapes := builtin ||
    (letters.reverse.find? fun c => c = 'e' ∨ c = 'E') = some 'e'
  let (content, stop) := if escapes then Printf.unescape true text else (Text.toBytes text, false)
  Act.write 1 (content ++ if stop ∨ 'n' ∈ letters then [] else [10])
  return 0

/-- Writes a format; `complaint` says what is wrong with an argument. -/
def printfWith (complaint : Text → Printf.Refusal → Act Unit) : Utility := fun args => do
  match if args.head? = some ['-', '-'] then args.tail else args with
  | [] => missingOperand
  | format :: rest =>
    let o := Printf.render format rest
    Act.write 1 o.content
    for (a, r) in o.refused do complaint a r
    return if o.refused = [] then 0 else 1

def printf : Utility :=
  printfWith fun a r => complain <| inApostrophes a ++ match r with
    | .noNumber => ": expected a numeric value"
    | .notOnlyNumber => ": value not completely converted"

def locationText (loc : Location) : Text := '/' :: Text.joinWith ['/'] loc

def pwd : Utility := fun _ => do
  Act.say 1 (locationText (← Act.process).directory ++ ['\n'])
  return 0

def lastPart (t : Text) : Text :=
  let trimmed := (t.reverse.dropWhile (· = '/')).reverse
  if trimmed = [] then t.take 1 else (trimmed.reverse.takeWhile (· ≠ '/')).reverse

def basename : Utility := fun args => do
  match if args.head? = some ['-', '-'] then args.tail else args with
  | [] => missingOperand
  | [p] =>
    Act.say 1 (lastPart p ++ ['\n'])
    return 0
  | [p, suffix] =>
    let name := lastPart p
    let cut := suffix ≠ [] ∧ name ≠ suffix ∧ suffix.isSuffixOf name
    Act.say 1 ((if cut then name.take (name.length - suffix.length) else name) ++ ['\n'])
    return 0
  | _ :: _ :: extra :: _ => misused ("extra operand " ++ inApostrophes extra)

def firstParts (t : Text) : Text :=
  let withoutSlashes (t : Text) : Text := (t.reverse.dropWhile (· = '/')).reverse
  let trimmed := withoutSlashes t
  if trimmed = [] then (if t = [] then ['.'] else ['/'])
  else
    let before := (trimmed.reverse.dropWhile (· ≠ '/')).reverse
    if before = [] then ['.'] else if withoutSlashes before = [] then ['/'] else withoutSlashes before

def dirname : Utility := fun args => do
  let operands := if args.head? = some ['-', '-'] then args.tail else args
  if operands = [] then missingOperand
  else
    for p in operands do Act.say 1 (firstParts p ++ ['\n'])
    return 0

def changeEach (operands : List Text) (failing : Text → IoError → Text)
    (change : Text → FileSystem → Except IoError FileSystem) : Act Nat := do
  let mut result := 0
  for operand in operands do
    match ← Act.changeFiles (change operand) with
    | none => pure ()
    | some e =>
      complain (failing operand e)
      result := 1
  if operands = [] then missingOperand else return result

def mkdir : Utility := fun args => do
  let (letters, operands) := switches args
  changeEach operands
    (fun p e => "cannot create directory " ++ inApostrophes p ++ ": " ++ reason e)
    fun p fs =>
      if 'p' ∈ letters then
        match fs.makeDirectories ⟨p⟩ with
        | (.ok (), fs) => .ok fs
        | (.error e, _) => .error e
      else fs.makeDirectory ⟨p⟩

def rmdir : Utility := fun args => do
  let (_, operands) := switches args
  changeEach operands
    (fun p e => "failed to remove " ++ inApostrophes p ++ ": " ++ reason e)
    fun p fs =>
      if !fs.isDirectory ⟨p⟩ then .error (if fs.has ⟨p⟩ then .notDirectory else .notFound)
      else if fs.namesIn ⟨p⟩ ≠ [] then .error (.other "Directory not empty")
      else fs.removeTree ⟨p⟩

def rm : Utility := fun args => do
  let (letters, operands) := switches args
  let forced := 'f' ∈ letters
  let deep := 'r' ∈ letters ∨ 'R' ∈ letters
  if operands = [] ∧ forced then return 0
  else
    changeEach operands
      (fun p e => "cannot remove " ++ inApostrophes p ++ ": " ++ reason e)
      fun p fs =>
        match fs.locate false ⟨p⟩ with
        | .ok (.vacant ..) => if forced then .ok fs else .error .notFound
        | .ok (.found _ .directory) => if deep then fs.removeTree ⟨p⟩ else .error .isDirectory
        | .ok (.found ..) => fs.removeTree ⟨p⟩
        | .error e => if forced ∧ e = .notFound then .ok fs else .error e

def touch : Utility := fun args => do
  let (_, operands) := switches args
  changeEach operands
    (fun p e => "cannot touch " ++ inApostrophes p ++ ": " ++ reason e)
    fun p fs => if fs.has ⟨p⟩ then .ok fs else fs.writeFile ⟨p⟩ []

/-- The file bits that a mode sets or clears for the owner, if it says anything about them. -/
def executableBy (mode : Text) (old : Bool) : Option Bool :=
  match Text.digits? mode with
  | some _ =>
    let owner := (mode.reverse[2]?.bind Text.digit?).getD 0
    some (owner % 2 = 1)
  | none =>
    let who := mode.takeWhile (· ∈ ['u', 'g', 'o', 'a'])
    let concerned := who = [] ∨ 'u' ∈ who ∨ 'a' ∈ who
    match mode.dropWhile (· ∈ ['u', 'g', 'o', 'a']) with
    | '+' :: bits => some (old || (concerned && 'x' ∈ bits))
    | '-' :: bits => some (old && !(concerned && 'x' ∈ bits))
    | '=' :: bits => some (if concerned then 'x' ∈ bits else old)
    | _ => none

def chmod : Utility := fun args => do
  match if args.head? = some ['-', 'R'] then args.tail else args with
  | mode :: operand :: operands =>
    if (executableBy mode false).isNone then
      misused ("invalid mode: " ++ inApostrophes mode)
    else
      changeEach (operand :: operands)
        (fun p e => "cannot access " ++ inApostrophes p ++ ": " ++ reason e)
        fun p fs =>
          let old := match fs.stat? ⟨p⟩ with
            | some (_, .file _ executable) => executable
            | _ => false
          fs.setExecutable ⟨p⟩ ((executableBy mode old).getD old)
  | [mode] => misused ("missing operand after " ++ inApostrophes mode)
  | [] => missingOperand

/-- Where something goes that is put into a directory or in the place of a file. -/
def destination (fs : FileSystem) (source target : Text) : Path :=
  if fs.isDirectory ⟨target⟩ then (⟨target⟩ : Path).join ⟨lastPart source⟩ else ⟨target⟩

def copyFile (fs : FileSystem) (source target : Text) : Except IoError FileSystem := do
  let content ← fs.read ⟨source⟩
  let executable := match fs.stat? ⟨source⟩ with
    | some (_, .file _ executable) => executable
    | _ => false
  let place := destination fs source target
  let known := fs.isFile place
  let fs ← fs.writeFile place content
  if known then pure fs else fs.setExecutable place executable

def cp : Utility := fun args => do
  let (_, operands) := switches args
  match operands.getLast? with
  | some target =>
    changeEach operands.dropLast
      (fun p e => "cannot stat " ++ inApostrophes p ++ ": " ++ reason e)
      fun p fs => copyFile fs p target
  | none => misused "missing file operand"

def mv : Utility := fun args => do
  let (_, operands) := switches args
  match operands.getLast? with
  | some target =>
    changeEach operands.dropLast
      (fun p e => "cannot stat " ++ inApostrophes p ++ ": " ++ reason e)
      fun p fs => do
        match ← fs.locate false ⟨p⟩ with
        | .vacant .. => .error .notFound
        | .found source node =>
          let place := destination fs p target
          let gone ← fs.removeTree ⟨p⟩
          match ← gone.locate false place with
          | .vacant parent name _ =>
            let moved := fs.nodes.entries.filter fun (k, _) => source.isPrefixOf k
            return moved.foldl (fun fs (k, n) =>
              fs.putNode (parent ++ name :: k.drop source.length) n) gone
          | .found loc .directory =>
            if node = .directory then return gone.putNode loc node else .error .isDirectory
          | .found loc _ => return gone.putNode loc node
  | none => misused "missing file operand"

def ln : Utility := fun args => do
  let (letters, operands) := switches args
  match operands with
  | [target, link] =>
    changeEach [link]
      (fun p e => "failed to create symbolic link " ++ inApostrophes p ++ ": " ++ reason e)
      fun p fs => do
        let place := destination fs target p
        let fs ← if 'f' ∈ letters ∧ fs.has place then fs.removeTree place else pure fs
        if 's' ∈ letters then fs.makeLink place target else copyFile fs target p
  | _ => misused "missing file operand"

/-- The names in a directory, without those that start with a dot unless a letter asks for them. -/
def ls : Utility := fun args => do
  let (letters, operands) := switches args
  let hidden := 'a' ∈ letters ∨ 'A' ∈ letters
  let own : List Text := if 'a' ∈ letters then [".", ".."] else []
  let mut result := 0
  for operand in if operands = [] then [['.']] else operands do
    let fs ← Act.files
    if fs.isDirectory ⟨operand⟩ ∧ 'd' ∉ letters then
      for name in own ++ (fs.namesIn ⟨operand⟩).filter fun n => hidden ∨ n.head? ≠ some '.' do
        Act.say 1 (name ++ ['\n'])
    else if fs.has ⟨operand⟩ then Act.say 1 (operand ++ ['\n'])
    else
      complain ("cannot access " ++ inApostrophes operand ++ ": No such file or directory")
      result := 2
  return result

/-- A length of time in milliseconds, rounded up; nothing for one without an end. -/
def duration? (t : Text) : Option (Option Nat) :=
  let unit : Option (Nat × Text) := match t.getLast? with
    | some 's' => some (1, t.dropLast)
    | some 'm' => some (60, t.dropLast)
    | some 'h' => some (3600, t.dropLast)
    | some 'd' => some (86400, t.dropLast)
    | _ => some (1, t)
  if t = "infinity".toList ∨ t = "inf".toList then some none
  else
    unit.bind fun (seconds, digits) =>
      let before := digits.takeWhile (· ≠ '.')
      let after := (digits.dropWhile (· ≠ '.')).drop 1
      (Text.digits? (before ++ after)).map fun n =>
        let scale := Nat.pow 10 after.length
        some ((n * seconds * 1000 + scale - 1) / scale)

def sleep : Utility := fun args => do
  if args = [] then missingOperand
  else
    match args.find? fun a => a.head? = some '-' ∧ 1 < a.length with
    | some a => misused ("invalid option -- " ++ inApostrophes ((a.drop 1).take 1))
    | none =>
    match args.mapM duration? with
    | none =>
      let bad := (args.find? fun a => (duration? a).isNone).getD []
      misused ("invalid time interval " ++ inApostrophes bad)
    | some times =>
      for t in times do
        match t with
        | some millis => Act.pause millis
        | none => throw .never
      return 0

/-- The condition that arguments form; `[` asks for a closing bracket. -/
def test (name : Text) : Utility := fun args => do
  let check (args : List Text) : Act Nat := do
    match Condition.holds (← Act.files) args with
    | .ok true => return 0
    | .ok false => return 1
    | .error e =>
      complain (Text.ofNat (← Act.process).line ++ ": " ++ name ++ ": Illegal number: " ++ e.argument)
      return 2
  if name = ['['] then
    if args.getLast? = some [']'] then check args.dropLast
    else
      complain (Text.ofNat (← Act.process).line ++ ": [: missing ]")
      return 2
  else check args

def readlink : Utility := fun args => do
  let (letters, operands) := switches args
  let mut result := 0
  for operand in operands do
    let fs ← Act.files
    if 'f' ∈ letters ∨ 'e' ∈ letters then
      match fs.locate true ⟨operand⟩ with
      | .ok (.found loc _) => Act.say 1 (locationText loc ++ ['\n'])
      | .ok (.vacant parent name _) =>
        if 'e' ∈ letters then result := 1
        else Act.say 1 (locationText (parent ++ [name]) ++ ['\n'])
      | .error _ => result := 1
    else
      match fs.locate false ⟨operand⟩ with
      | .ok (.found _ (.link target)) => Act.say 1 (target ++ ['\n'])
      | _ => result := 1
  return result

def realpath : Utility := fun args => do
  let (_, operands) := switches args
  let mut result := 0
  for operand in operands do
    match (← Act.files).locate true ⟨operand⟩ with
    | .ok (.found loc _) => Act.say 1 (locationText loc ++ ['\n'])
    | .ok (.vacant parent name _) => Act.say 1 (locationText (parent ++ [name]) ++ ['\n'])
    | .error e =>
      complain (operand ++ ": " ++ reason e)
      result := 1
  if operands = [] then missingOperand else return result

def tac : Utility := fun args => do
  let (_, operands) := switches args
  forEach unopened operands fun s => do Act.write 1 (lines (← whole s)).reverse.flatten

/-- The value of an argument such as `bs=512`. -/
def keyword? (key : Text) (args : List Text) : Option Text :=
  (args.find? fun a => (key ++ ['=']).isPrefixOf a).map fun a => a.drop (key.length + 1)

/-- Copies blocks without telling how many. -/
def dd : Utility := fun args => do
  let size := ((keyword? "bs" args).bind count?).getD 512
  match ← open? ((keyword? "if" args).getD ['-']) with
  | .error e =>
    complain ("failed to open " ++ inApostrophes ((keyword? "if" args).getD []) ++ ": " ++ reason e)
    return 1
  | .ok s =>
    let copied : Stream := match (keyword? "count" args).bind count? with
      | some n => .finite (front true (n * size) s)
      | none => s
    match keyword? "of" args with
    | none => Act.pour 1 copied
    | some target =>
      let content ← whole copied
      let _ ← Act.changeFiles fun fs => fs.writeFile ⟨target⟩ content
    return 0

/-- The programs that need no other ones. -/
def all : List (Text × Utility) :=
  (onTexts ++ onFiles).map fun (name, u) => (name.toList, u)
where
  onTexts : List (String × Utility) :=
    [("cat", cat), ("cut", cut), ("dd", dd), ("echo", echo false), ("head", head), ("printf", printf),
     ("seq", seq), ("sort", sort), ("tac", tac), ("tail", tail), ("tee", tee), ("tr", tr),
     ("uniq", uniq), ("wc", wc), ("yes", yes)]
  onFiles : List (String × Utility) :=
    [("[", test "["), ("basename", basename), ("chmod", chmod), ("cp", cp), ("dirname", dirname),
     ("false", false'), ("ln", ln), ("ls", ls), ("mkdir", mkdir), ("mv", mv), ("pwd", pwd),
     ("readlink", readlink), ("realpath", realpath), ("rm", rm), ("rmdir", rmdir), ("sleep", sleep),
     ("test", test "test"), ("touch", touch), ("true", true')]

def find? (name : Text) : Option Utility := all.lookup name

end TriBench.Shell.Utility

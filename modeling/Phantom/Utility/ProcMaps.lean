import Phantom.Host.MemoryMapper
import Phantom.Lib.Regex
import Phantom.Lib.Text

/-! Lines of `/proc/<pid>/maps`, as the kernel prints them and as they are parsed. -/
namespace Phantom.ProcMaps

def isSolid (c : Char) : Bool := !isWhitespace c

/-- The characters of `\d`: each number begins a row of ten digits. -/
def isDecimal (c : Char) : Bool :=
  ([0x30,0x660,0x6f0,0x7c0,0x966,0x9e6,0xa66,0xae6,0xb66,0xbe6,0xc66,0xce6,0xd66,0xde6,0xe50,0xed0,
    0xf20,0x1040,0x1090,0x17e0,0x1810,0x1946,0x19d0,0x1a80,0x1a90,0x1b50,0x1bb0,0x1c40,0x1c50,0xa620,
    0xa8d0,0xa900,0xa9d0,0xa9f0,0xaa50,0xabf0,0xff10,0x104a0,0x10d30,0x11066,0x110f0,0x11136,0x111d0,
    0x112f0,0x11450,0x114d0,0x11650,0x116c0,0x11730,0x118e0,0x11950,0x11c50,0x11d50,0x11da0,0x16a60,
    0x16b50,0x1d7ce,0x1d7d8,0x1d7e2,0x1d7ec,0x1d7f6,0x1e140,0x1e2f0,0x1e950,0x1fbf0].any
    fun first ↦ decide (first ≤ c.toNat ∧ c.toNat<first+10))

def char (c : Char) : Regex Char := .one (·==c)

/-- `^\[(\S+)\]$`. -/
def specialRegex : Regex Char := .seq (char '[') (.seq (.group (.plus isSolid)) (char ']'))

/-- `^stack:(\d+)$`. -/
def threadStackRegex : Regex Char :=
  .seq (char 's') (.seq (char 't') (.seq (char 'a') (.seq (char 'c') (.seq (char 'k') (.seq (char ':')
    (.group (.plus isDecimal)))))))

/-- What stands between the brackets. -/
def labelFromStr (label : List Char) : Except String MappingPath :=
  match threadStackRegex.captures label with
  | some [digits] =>
    match parseSigned 10 (2^31-1) digits with
    | .error kind => .error ("Parsing thread id: "++kind.message)
    | .ok tid => .ok (.threadStack tid.toNat)
  | _ =>
    match String.ofList label with
    | "stack" => .ok .initialStack
    | "vdso" => .ok .vdso
    | "heap" => .ok .heap
    | name => .ok (.otherSpecial name)

/-- `MappingPath::from_str`. -/
def pathFromStr (s : List Char) : Except String MappingPath :=
  if s.head?=some '/' then .ok (.path (String.ofList s))
  else
    match specialRegex.captures s with
    | some [label] => labelFromStr label
    | _ => .error ("Couldn't parse '"++String.ofList s++"'")

/-- A single line. -/
structure Mapping where
  start : ℕ
  stop : ℕ
  read : Bool
  write : Bool
  execute : Bool
  sharing : Sharing
  offset : ℕ
  deviceMajor : ℤ
  deviceMinor : ℤ
  inode : ℤ
  path : Option MappingPath
  deleted : Bool
  deriving DecidableEq, Repr

/-- `^(\S+)-(\S+)\s+(\S)(\S)(\S)(\S)\s+(\S+)\s+(\S+):(\S+)\s+(\S+)\s*(\S*)\s*(\S*)$`. -/
def lineRegex : Regex Char :=
  .seq (.group (.plus isSolid)) (.seq (char '-') (.seq (.group (.plus isSolid))
    (.seq (.plus isWhitespace) (.seq (.group (.one isSolid)) (.seq (.group (.one isSolid))
      (.seq (.group (.one isSolid)) (.seq (.group (.one isSolid)) (.seq (.plus isWhitespace)
        (.seq (.group (.plus isSolid)) (.seq (.plus isWhitespace) (.seq (.group (.plus isSolid))
          (.seq (char ':') (.seq (.group (.plus isSolid)) (.seq (.plus isWhitespace)
            (.seq (.group (.plus isSolid)) (.seq (.many isWhitespace) (.seq (.group (.many isSolid))
              (.seq (.many isWhitespace) (.group (.many isSolid))))))))))))))))))))

/-- Decorate an error with the name of the field and its text. -/
def parseField {α : Type} (field : List Char) (fieldName : String) (parsed : Except String α) :
    Except String α :=
  match parsed with
  | .ok res => .ok res
  | .error err => .error ("Parsing "++fieldName++" '"++String.ofList field++"': "++err)

def unsignedField (field : List Char) (fieldName : String) : Except String ℕ :=
  parseField field fieldName ((parseUnsigned 16 (2^64-1) field).mapError IntErrorKind.message)

def signedField (radix : ℕ) (field : List Char) (fieldName : String) : Except String ℤ :=
  parseField field fieldName ((parseSigned radix (2^31-1) field).mapError IntErrorKind.message)

/-- A permission is there or not. -/
def bitField (letter : Char) (field : List Char) (fieldName : String) : Except String Bool :=
  if field=[letter] then .ok true
  else if field=['-'] then .ok false
  else .error ("Couldn't parse "++fieldName++" bit "++String.ofList field)

def sharingFromStr (field : List Char) : Except String Sharing :=
  if field=['p'] then .ok .priv
  else if field=['s'] then .ok .shared
  else .error ("Bad sharing specifier "++String.ofList field)

def pathField (field : List Char) : Except String (Option MappingPath) :=
  parseField field "path" (if field=[] then .ok none else (pathFromStr field).map some)

def deletedField (field : List Char) : Except String Bool :=
  if field=[] then .ok false
  else if field="(deleted)".toList then .ok true
  else .error ("Couldn't parse trailing field '"++String.ofList field++"'")

/-- `Mapping::from_str`. -/
def fromStr (line : List Char) : Except String Mapping :=
  match lineRegex.captures line with
  | some [start,stop,read,write,execute,sharing,offset,major,minor,inode,path,deleted] => do
    let start ← unsignedField start "begin"
    let stop ← unsignedField stop "end"
    let read ← bitField 'r' read "read"
    let write ← bitField 'w' write "write"
    let execute ← bitField 'x' execute "execute"
    let sharing ← sharingFromStr sharing
    let offset ← unsignedField offset "offset"
    let deviceMajor ← signedField 16 major "device_major"
    let deviceMinor ← signedField 16 minor "device_minor"
    let inode ← signedField 10 inode "inode"
    let path ← pathField path
    let deleted ← deletedField deleted
    .ok ⟨start,stop,read,write,execute,sharing,offset,deviceMajor,deviceMinor,inode,path,deleted⟩
  | _ => .error ("Didn't match regex: "++String.ofList line)

/-- The parts of a text that end at a line feed or at the end of the text. -/
def splitLines : List Char → List (List Char)
  | [] => []
  | c::s =>
    if c = '\n' then []::splitLines s
    else
      match splitLines s with
      | [] => [[c]]
      | line::lines => (c::line)::lines

/-- `str::lines`: a carriage return at the end of a line does not belong to it. -/
def lines (s : List Char) : List (List Char) :=
  (splitLines s).map fun line ↦ (stripSuffix ['\r'] line).getD line

def parseFileContents (mappings : List Char) : Except String (List Mapping) :=
  (lines mappings).mapM fun line ↦
    (fromStr line).mapError fun e ↦ "Parsing line: "++String.ofList line++"\n"++e

/-! What the kernel prints. -/

/-- The text of a path: the kernel prints a line feed in it in octal. -/
def pathText : MappingPath → List Char
  | .initialStack => "[stack]".toList
  | .threadStack tid => "[stack:".toList++(printPadded 10 1 tid++[']'])
  | .vdso => "[vdso]".toList
  | .heap => "[heap]".toList
  | .otherSpecial name => '['::(name.toList++[']'])
  | .path path => path.toList.flatMap fun c ↦ if c = '\n' then "\\012".toList else [c]

def bit (letter : Char) (b : Bool) : Char := if b then letter else '-'

def sharingChar : Sharing → Char
  | .priv => 'p'
  | .shared => 's'

/-- The line for a mapping, with a number of padding spaces before the path or the end. -/
def printLine (m : Mapping) (padding : ℕ) : List Char :=
  printPadded 16 8 m.start++ '-'::(printPadded 16 8 m.stop++ ' '::bit 'r' m.read::bit 'w' m.write::
    bit 'x' m.execute::sharingChar m.sharing:: ' '::(printPadded 16 8 m.offset++ ' '::
      (printPadded 16 2 m.deviceMajor.toNat++ ':'::(printPadded 16 2 m.deviceMinor.toNat++ ' '::
        (printPadded 10 1 m.inode.toNat++(List.replicate padding ' '++
          ((m.path.elim [] pathText)++if m.deleted then " (deleted)".toList else [])))))))

/-- The file: each mapping has its own padding. -/
def printFile (mappings : List (Mapping × ℕ)) : List Char :=
  mappings.flatMap fun e ↦ printLine e.1 e.2++[ '\n']

end Phantom.ProcMaps

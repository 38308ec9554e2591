import Peachos.Fs.Strings

/-! # The path parser

`pparser.c`. A parsed path is a list of heap objects: the root with the drive number, and
one part for each name, which points to a buffer of `PEACHOS_MAXPATH` bytes.
-/

namespace Peachos

/-- The size of `struct path_root` and of `struct path_part`. -/
abbrev sizeofPath : Nat := 8

def pathparserPathValidFormat (filename : List UInt8) : Bool :=
  strnlen filename peachosMaxPath ≥ 3 && isDigit (filename.headD 0) &&
    (filename.drop 1).take 2 == [58, 47]

/-- `pathparser_get_drive_by_path`: the result and the rest of the path. -/
def pathparserGetDriveByPath (path : List UInt8) : Int × List UInt8 :=
  if !pathparserPathValidFormat path then (-ebadpath, path)
  else (toNumericDigit (path.headD 0), path.drop 3)

def pathparserCreateRoot (driveNumber : Int) : K Nat := do
  let pathR ← kzalloc sizeofPath (.pathRoot {})
  let root ← load Obj.pathRoot? pathR
  store pathR (.pathRoot { root with driveNo := driveNumber, first := 0 })
  pure pathR

/-- The characters of a path up to the next separator. -/
def pathPartName (path : List UInt8) : List UInt8 := path.takeWhile (· ≠ 47)

/-- `pathparser_get_path_part`: the buffer with the name and the rest of the path. -/
def pathparserGetPathPart (path : List UInt8) : K (Nat × List UInt8) := do
  let resultPathPart ← kzalloc peachosMaxPath (.bytes (List.replicate peachosMaxPath 0))
  let name := pathPartName path
  if name.isEmpty then do
    kfree resultPathPart
    pure (0, path.drop 1)
  else do
    writeBytes resultPathPart 0 name
    pure (resultPathPart, path.drop (name.length + 1))

def pathparserParsePathPart (lastPart : Nat) (path : List UInt8) : K (Nat × List UInt8) := do
  let (pathPartStr, path) ← pathparserGetPathPart path
  if pathPartStr = 0 then pure (0, path)
  else do
    let part ← kzalloc sizeofPath (.pathPart {})
    let value ← load Obj.pathPart? part
    store part (.pathPart { value with part := pathPartStr, next := 0 })
    if lastPart ≠ 0 then do
      let last ← load Obj.pathPart? lastPart
      store lastPart (.pathPart { last with next := part })
      pure (part, path)
    else pure (part, path)

/-- The loop of `pathparser_parse`; every part but the last one takes a character. -/
def pathparserParseLoop : (fuel : Nat) → (part : Nat) → (path : List UInt8) → K Unit
  | 0, _, _ => Exec.fault .diverges
  | fuel + 1, part, path =>
      if part = 0 then pure ()
      else do
        let (part, path) ← pathparserParsePathPart part path
        pathparserParseLoop fuel part path

def pathparserParse (path : List UInt8) : K Nat :=
  if strlen path > peachosMaxPath then pure 0
  else do
    let (res, tmpPath) := pathparserGetDriveByPath path
    if res < 0 then pure 0
    else do
      let pathRoot ← pathparserCreateRoot res
      if pathRoot = 0 then pure 0
      else do
        let (firstPath, tmpPath) ← pathparserParsePathPart 0 tmpPath
        if firstPath = 0 then pure pathRoot
        else do
          let root ← load Obj.pathRoot? pathRoot
          store pathRoot (.pathRoot { root with first := firstPath })
          let (part, tmpPath) ← pathparserParsePathPart firstPath tmpPath
          pathparserParseLoop (tmpPath.length + 2) part tmpPath
          pure pathRoot

/-- The loop of `pathparser_free`. -/
def pathparserFreeLoop : (fuel : Nat) → (part : Nat) → K Unit
  | 0, _ => Exec.fault .diverges
  | fuel + 1, part =>
      if part = 0 then pure ()
      else do
        let value ← load Obj.pathPart? part
        kfree value.part
        kfree part
        pathparserFreeLoop fuel value.next

def pathparserFree (root : Nat) : K Unit := do
  let value ← load Obj.pathRoot? root
  pathparserFreeLoop (peachosMaxPath + 1) value.first
  kfree root

end Peachos

import Mathlib.Data.Nat.Notation
import PolyrepoTemplate.Store.Search
import PolyrepoTemplate.Text.Lines
import PolyrepoTemplate.Text.Path
import PolyrepoTemplate.Text.Strip
import PolyrepoTemplate.Text.Utf8

namespace PolyrepoTemplate

open Search Text

inductive ScanError where
  | unicodeDecodeError
  | valueError
  deriving DecidableEq, Repr

inductive VersionError where
  | packageNotFoundError (name : String)
  | scan (e : ScanError)
  deriving DecidableEq, Repr

/-- What the process sees of the files. -/
structure FileSystem where
  /-- The bytes of a file, unless opening or reading it is an `OSError`. -/
  read : String → Option (List UInt8)
  /-- The absolute path that a path leads to. -/
  realpath : String → String
  isDirectory : String → Bool

structure PthDistribution where
  version : String
  files : Option (List String)
  locateFile : String → String

namespace FileSystem

variable (fs : FileSystem)

/-- `Path(path).read_text(encoding="utf-8")`; nothing after an `OSError`. -/
def readText (path : String) : Except ScanError (Option (List Char)) :=
  if '\x00' ∈ path.toList then .error .valueError
  else
    match fs.read path with
    | none => .ok none
    | some bytes =>
      match bytes.toByteArray.utf8Decode? with
      | none => .error .unicodeDecodeError
      | some text => .ok (some (universalNewlines text.toList))

/-- `Path(path).resolve()` in the working directory `cwd`. -/
def resolve (cwd path : String) : Except ScanError String :=
  if '\x00' ∈ path.toList then .error .valueError
  else .ok (fs.realpath (Path.join cwd path))

end FileSystem

def isPth (file : String) : Bool := ".pth".toList.isSuffixOf file.toList

def isSkipped (stripped : String) : Bool := stripped == "" || stripped.toList.head? == some '#'

/-- The body of the loop over the lines. -/
def lineIsSrc (fs : FileSystem) (cwd srcDir : String) (line : List Char) : Except ScanError Bool :=
  let stripped := strip (String.ofList line)
  if isSkipped stripped then .ok false else (fs.resolve cwd stripped).map (· == srcDir)

def pthPointsAtSrc (fs : FileSystem) (cwd : String) (dist : PthDistribution) (srcDir : String) :
    Except ScanError Bool :=
  (dist.files.getD []).anyM fun file =>
    if isPth file then
      match fs.readText (dist.locateFile file) with
      | .error e => .error e
      | .ok none => .ok false
      -- a match ends the loops over the lines and over the files
      | .ok (some text) => (splitlines text).anyM (lineIsSrc fs cwd srcDir)
    else .ok false

def installedAppVersion (fs : FileSystem) (cwd importName : String)
    (mappedNames : String → Option (List String)) (versionFor : String → Except VersionError String)
    (dists : List PthDistribution) (srcDir : String) : Except VersionError String :=
  match mappedNames importName with
  | some (distName :: _) => versionFor distName
  | _ =>
    match dists.findM? (pthPointsAtSrc fs cwd · srcDir) with
    | .error e => .error (.scan e)
    | .ok none => .error (.packageNotFoundError importName)
    | .ok (some dist) => .ok dist.version

structure PthLine where
  pth : String
  path : String
  deriving DecidableEq, Repr

def FileSystem.leadsTo (fs : FileSystem) (srcDir : String) (base : PthLine → String)
    (line : PthLine) : Bool := fs.realpath (Path.join (base line) line.path) == srcDir

def PthLine.ofText (pth : String) (text : List Char) : List (Except ScanError PthLine) :=
  (splitlines text).flatMap fun line =>
    let stripped := strip (String.ofList line)
    if isSkipped stripped then []
    else if '\x00' ∈ stripped.toList then [.error .valueError]
    else [.ok ⟨pth, stripped⟩]

def PthDistribution.met (dist : PthDistribution) (fs : FileSystem) :
    List (Except ScanError PthLine) :=
  (dist.files.getD []).flatMap fun file =>
    if isPth file then
      match fs.readText (dist.locateFile file) with
      | .error e => [.error e]
      | .ok none => []
      | .ok (some text) => PthLine.ofText (dist.locateFile file) text
    else []

section

variable {fs : FileSystem} {cwd srcDir : String}

theorem PthLine.anyM_ofText (pth : String) (text : List Char) :
    (PthLine.ofText pth text).anyM (Except.map (fs.leadsTo srcDir fun _ => cwd)) =
      (splitlines text).anyM (lineIsSrc fs cwd srcDir) := by
  rw [PthLine.ofText, anyM_flatMap]
  refine congrArg (List.anyM · (splitlines text)) (funext fun line => ?_)
  dsimp only [lineIsSrc]
  generalize strip (String.ofList line) = stripped
  split
  · rfl
  · unfold FileSystem.resolve
    split
    · exact anyM_error (map_error _) []
    · rw [anyM_singleton]
      rfl

theorem pthPointsAtSrc_eq (dist : PthDistribution) : pthPointsAtSrc fs cwd dist srcDir =
    (dist.met fs).anyM (Except.map (fs.leadsTo srcDir fun _ => cwd)) := by
  rw [pthPointsAtSrc, PthDistribution.met, anyM_flatMap]
  refine congrArg (List.anyM · (dist.files.getD [])) (funext fun file => ?_)
  split
  · cases fs.readText (dist.locateFile file) with
    | error e => rfl
    | ok text =>
      cases text with
      | none => rfl
      | some text => exact (PthLine.anyM_ofText _ text).symm
  · rfl

/-- A line that, stripped, is no comment and resolves to `srcDir`. -/
def FileSystem.names (fs : FileSystem) (cwd srcDir : String) (line : List Char) : Bool :=
  let stripped := strip (String.ofList line)
  !isSkipped stripped && decide (fs.resolve cwd stripped = .ok srcDir)

def PthDistribution.namesSrc (fs : FileSystem) (cwd srcDir : String) (dist : PthDistribution) :
    Bool :=
  (dist.files.getD []).any fun file => isPth file &&
    match fs.readText (dist.locateFile file) with
    | .ok (some text) => (splitlines text).any (fs.names cwd srcDir)
    | _ => false

def foundVersion (fs : FileSystem) (cwd importName : String) (dists : List PthDistribution)
    (srcDir : String) : Except VersionError String :=
  match dists.find? (·.namesSrc fs cwd srcDir) with
  | some dist => .ok dist.version
  | none => .error (.packageNotFoundError importName)

/-- Nothing met before the first line that names `srcDir` raises. -/
def Undisturbed (fs : FileSystem) (cwd : String) (dists : List PthDistribution)
    (srcDir : String) : Prop :=
  ∀ x ∈ (dists.flatMap (·.met fs)).takeWhile (!hit (fs.leadsTo srcDir fun _ => cwd) ·),
    x.isOk = true

theorem looksFor_names : LooksFor (lineIsSrc fs cwd srcDir) (fs.names cwd srcDir) := by
  intro line found h
  dsimp only [lineIsSrc, FileSystem.names] at h ⊢
  generalize strip (String.ofList line) = stripped at h
  split at h
  · rename_i hskipped
    rw [hskipped]
    exact (Except.ok.inj h).symm
  · rename_i hskipped
    rw [Bool.eq_false_iff.mpr hskipped]
    cases hpath : fs.resolve cwd stripped with
    | error e =>
      rw [hpath] at h
      cases h
    | ok path =>
      rw [hpath] at h
      rw [← Except.ok.inj h]
      simp [beq_eq_decide]

theorem looksFor_namesSrc : LooksFor (pthPointsAtSrc fs cwd · srcDir)
    (·.namesSrc fs cwd srcDir) := by
  intro dist
  apply LooksFor.anyM
  intro file found h
  dsimp only at h ⊢
  split at h
  · rename_i hpth
    rw [hpth, Bool.true_and]
    match htext : fs.readText (dist.locateFile file) with
    | .error e =>
      rw [htext] at h
      cases h
    | .ok none =>
      rw [htext] at h
      exact (Except.ok.inj h).symm
    | .ok (some text) =>
      rw [htext] at h
      exact looksFor_names.anyM _ _ h
  · rename_i hpth
    rw [Bool.eq_false_iff.mpr hpth]
    exact (Except.ok.inj h).symm

theorem undisturbed_iff {dists : List PthDistribution} : Undisturbed fs cwd dists srcDir ↔
    (dists.anyM (pthPointsAtSrc fs cwd · srcDir)).isOk = true := by
  unfold Undisturbed
  rw [← anyM_map_isOk, anyM_flatMap]
  simp only [pthPointsAtSrc_eq]

theorem foundVersion_congr {importName : String} {dists dists' : List PthDistribution}
    (h : dists'.filter (·.namesSrc fs cwd srcDir) = dists.filter (·.namesSrc fs cwd srcDir)) :
    foundVersion fs cwd importName dists' srcDir = foundVersion fs cwd importName dists srcDir := by
  unfold foundVersion
  rw [← List.head?_filter, ← List.head?_filter, h]

theorem installedAppVersion_scan {importName : String}
    {mappedNames : String → Option (List String)} (hnames : (mappedNames importName).getD [] = [])
    (versionFor : String → Except VersionError String) (dists : List PthDistribution) :
    installedAppVersion fs cwd importName mappedNames versionFor dists srcDir =
      match dists.findM? (pthPointsAtSrc fs cwd · srcDir) with
      | .error e => .error (.scan e)
      | .ok none => .error (.packageNotFoundError importName)
      | .ok (some dist) => .ok dist.version := by
  unfold installedAppVersion
  split
  · rename_i hentry
    rw [hentry] at hnames
    cases hnames
  · rfl

theorem installedAppVersion_eq_foundVersion_iff {importName : String}
    {mappedNames : String → Option (List String)} (hnames : (mappedNames importName).getD [] = [])
    (versionFor : String → Except VersionError String) (dists : List PthDistribution) :
    installedAppVersion fs cwd importName mappedNames versionFor dists srcDir =
      foundVersion fs cwd importName dists srcDir ↔ Undisturbed fs cwd dists srcDir := by
  have hlooks : LooksFor (pthPointsAtSrc fs cwd · srcDir) (·.namesSrc fs cwd srcDir) :=
    looksFor_namesSrc
  rw [undisturbed_iff, installedAppVersion_scan hnames, foundVersion]
  obtain ⟨hfind, hok⟩ | ⟨e, hfind, herror⟩ := hlooks.findM?_cases dists
  · rw [hfind]
    refine iff_of_true ?_ hok
    cases dists.find? (·.namesSrc fs cwd srcDir) <;> rfl
  · rw [hfind, herror]
    refine iff_of_false (fun h => ?_) Bool.false_ne_true
    cases hfound : dists.find? (·.namesSrc fs cwd srcDir) with
    | none =>
      rw [hfound] at h
      cases h
    | some dist =>
      rw [hfound] at h
      cases h

/-- The version is the one of the first distribution that names `srcDir`, and foreign
distributions play no part in it, as long as nothing before it raises. -/
theorem installedAppVersion_survives_iff {importName : String}
    {mappedNames : String → Option (List String)} (hnames : (mappedNames importName).getD [] = [])
    (versionFor : String → Except VersionError String) (dists : List PthDistribution) :
    (installedAppVersion fs cwd importName mappedNames versionFor dists srcDir =
      foundVersion fs cwd importName dists srcDir ↔ Undisturbed fs cwd dists srcDir) ∧
    ∀ dists' : List PthDistribution,
      dists'.filter (·.namesSrc fs cwd srcDir) = dists.filter (·.namesSrc fs cwd srcDir) →
      Undisturbed fs cwd dists srcDir →
      (installedAppVersion fs cwd importName mappedNames versionFor dists' srcDir =
        installedAppVersion fs cwd importName mappedNames versionFor dists srcDir ↔
          Undisturbed fs cwd dists' srcDir) := by
  refine ⟨installedAppVersion_eq_foundVersion_iff hnames versionFor dists, ?_⟩
  intro dists' hfilter hdists
  rw [(installedAppVersion_eq_foundVersion_iff hnames versionFor dists).mpr hdists,
    ← foundVersion_congr hfilter]
  exact installedAppVersion_eq_foundVersion_iff hnames versionFor dists'

end

def plainFiles (files : List (String × List UInt8)) (directories : List String) : FileSystem where
  read path := files.lookup path
  realpath := Path.normalise
  isDirectory path := directories.contains path

def siteDist (version pth : String) : PthDistribution where
  version
  files := some [pth]
  locateFile := ("/site/" ++ ·)

def appDist : PthDistribution := siteDist "0.1.0" "_app.pth"

/-- Its `.pth` holds `/é` in Latin-1. -/
def legacyDist : PthDistribution := siteDist "3.1" "legacy.pth"

def legacySite : FileSystem :=
  plainFiles
    [("/site/_app.pth", utf8 "/work/src\n".toList), ("/site/legacy.pth", [0x2F, 0xE9, 0x0A])]
    ["/site", "/work/src"]

theorem installedAppVersion_survives_last :
    installedAppVersion legacySite "/site" "app" (fun _ => none)
      (.error <| .packageNotFoundError ·) [appDist, legacyDist] "/work/src" = .ok "0.1.0" :=
  ((installedAppVersion_survives_iff rfl _ _).1.mpr (by unfold Undisturbed; decide +kernel)).trans
    (by decide +kernel)

/-- The legacy file comes first. -/
theorem installedAppVersion_fails : ¬ ∀ (fs : FileSystem) (cwd importName : String)
    (mappedNames : String → Option (List String)) (versionFor : String → Except VersionError String)
    (dists : List PthDistribution) (srcDir : String), (mappedNames importName).getD [] = [] →
    installedAppVersion fs cwd importName mappedNames versionFor dists srcDir =
      foundVersion fs cwd importName dists srcDir := by
  intro h
  have hfound := h legacySite "/site" "app" (fun _ => none) (.error <| .packageNotFoundError ·)
    [legacyDist, appDist] "/work/src" rfl
  revert hfound
  decide +kernel

end PolyrepoTemplate

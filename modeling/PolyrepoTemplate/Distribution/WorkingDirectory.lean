import PolyrepoTemplate.Distribution.InstalledAppVersion

namespace PolyrepoTemplate

open Search Text

/-- The directory that the interpreter reads a line in. -/
def PthLine.siteDir (line : PthLine) : String := Path.dirname line.pth

def sitePointsAtSrc (fs : FileSystem) (dist : PthDistribution) (srcDir : String) :
    Except ScanError Bool :=
  (dist.met fs).anyM (Except.map (fs.leadsTo srcDir PthLine.siteDir))

/-- From every working directory the same answers, the interpreter's, and the same version
or error. -/
structure SameEverywhere (fs : FileSystem) (srcDir : String) (dists : List PthDistribution) :
    Prop where
  pointsAtSrc : ∀ dist ∈ dists, ∀ cwd, fs.isDirectory cwd = true →
    pthPointsAtSrc fs cwd dist srcDir = sitePointsAtSrc fs dist srcDir
  version : ∀ importName mappedNames versionFor cwd cwd', fs.isDirectory cwd = true →
    fs.isDirectory cwd' = true →
    installedAppVersion fs cwd importName mappedNames versionFor dists srcDir =
      installedAppVersion fs cwd' importName mappedNames versionFor dists srcDir

namespace PthDistribution

variable (fs : FileSystem) (srcDir : String) (dist : PthDistribution)

def NamesAbsolutely : Prop := ∃ line ∈ reached (dist.met fs),
  Path.isAbsolute line.path = true ∧ fs.realpath line.path = srcDir

def NamesFrom (base : PthLine → String) : Prop := ∃ line ∈ reached (dist.met fs),
  Path.isAbsolute line.path = false ∧ fs.realpath (Path.join (base line) line.path) = srcDir

/-- An absolute line decides, or the relative ones say the same in the directory of their
`.pth` and in every working directory. -/
def Settled : Prop :=
  dist.NamesAbsolutely fs srcDir ∨
    (dist.NamesFrom fs srcDir PthLine.siteDir ∧
      ∀ cwd, fs.isDirectory cwd = true → dist.NamesFrom fs srcDir fun _ => cwd) ∨
    (¬ dist.NamesFrom fs srcDir PthLine.siteDir ∧
      ∀ cwd, fs.isDirectory cwd = true → ¬ dist.NamesFrom fs srcDir fun _ => cwd)

variable {fs srcDir dist}

theorem exists_leadsTo {base : PthLine → String} :
    (∃ line ∈ reached (dist.met fs), fs.leadsTo srcDir base line = true) ↔
      dist.NamesAbsolutely fs srcDir ∨ dist.NamesFrom fs srcDir base := by
  simp only [FileSystem.leadsTo, beq_iff_eq]
  constructor
  · rintro ⟨line, hline, hpath⟩
    cases habsolute : Path.isAbsolute line.path with
    | true =>
      rw [Path.join_absolute habsolute] at hpath
      exact .inl ⟨line, hline, habsolute, hpath⟩
    | false => exact .inr ⟨line, hline, habsolute, hpath⟩
  · rintro (⟨line, hline, habsolute, hpath⟩ | ⟨line, hline, -, hpath⟩)
    · refine ⟨line, hline, ?_⟩
      rw [Path.join_absolute habsolute, hpath]
    · exact ⟨line, hline, hpath⟩

theorem pointsAtSrc_eq_iff {cwd : String} :
    pthPointsAtSrc fs cwd dist srcDir = sitePointsAtSrc fs dist srcDir ↔
      (dist.NamesAbsolutely fs srcDir ∨ dist.NamesFrom fs srcDir (fun _ => cwd) ↔
        dist.NamesAbsolutely fs srcDir ∨ dist.NamesFrom fs srcDir PthLine.siteDir) := by
  rw [pthPointsAtSrc_eq, sitePointsAtSrc, anyM_map_eq_iff, exists_leadsTo, exists_leadsTo]

theorem settled_iff : dist.Settled fs srcDir ↔ ∀ cwd, fs.isDirectory cwd = true →
    pthPointsAtSrc fs cwd dist srcDir = sitePointsAtSrc fs dist srcDir := by
  simp only [pointsAtSrc_eq_iff, Settled]
  -- an absolute line says the same everywhere, and then the relative ones do not matter
  by_cases habsolute : dist.NamesAbsolutely fs srcDir
  · simp [habsolute]
  · by_cases hsite : dist.NamesFrom fs srcDir PthLine.siteDir <;> simp [habsolute, hsite]

end PthDistribution

/-- The scan depends on the installation alone exactly when every distribution is settled. -/
theorem sameEverywhere_iff (fs : FileSystem) (srcDir : String) (dists : List PthDistribution) :
    SameEverywhere fs srcDir dists ↔ ∀ dist ∈ dists, dist.Settled fs srcDir := by
  simp only [PthDistribution.settled_iff]
  refine ⟨SameEverywhere.pointsAtSrc, fun h => ⟨h, ?_⟩⟩
  intro importName mappedNames versionFor cwd cwd' hcwd hcwd'
  have hscan : dists.findM? (pthPointsAtSrc fs cwd · srcDir) =
      dists.findM? (pthPointsAtSrc fs cwd' · srcDir) :=
    findM?_congr fun dist hdist => (h dist hdist cwd hcwd).trans (h dist hdist cwd' hcwd').symm
  rw [installedAppVersion, installedAppVersion, hscan]

def relativeDist : PthDistribution := siteDist "3.1" "relative.pth"

def relativeSite : FileSystem :=
  plainFiles
    [("/site/_app.pth", utf8 "/work/src\n".toList), ("/site/relative.pth", utf8 ".\n".toList)]
    ["/site", "/work/src"]

/-- Started in `src/`, the process takes the other distribution for its own. -/
theorem sameEverywhere_fails : ¬ ∀ (fs : FileSystem) (srcDir : String)
    (dists : List PthDistribution), SameEverywhere fs srcDir dists := by
  intro h
  have hversion := (h relativeSite "/work/src" [relativeDist, appDist]).version "app"
    (fun _ => none) (.error <| .packageNotFoundError ·) "/work/src" "/site" (by decide +kernel)
    (by decide +kernel)
  revert hversion
  decide +kernel

end PolyrepoTemplate

import Mathlib.Data.List.Basic
import SchemaForge.Files.Disk

/-! How delivering a file changes a disk. Directories appear where nothing was, the file appears at its location, and
everything else stays. So whatever a name led to it still leads to, unless that is the delivered file. A name that led
to nothing may lead to something afterwards: to what was delivered, or upwards again from a directory that is new. -/
namespace SchemaForge.Disk

variable {disk between after : Disk} {location other : Location} {name text : String}

/-- Whatever is on the disk is in a directory. -/
def IsTree (disk : Disk) : Prop :=
  ∀ entry ∈ disk.nodes, disk.nodeAt? entry.1.dropLast = some .directory

instance (disk : Disk) : Decidable disk.IsTree :=
  inferInstanceAs (Decidable (∀ entry ∈ disk.nodes, disk.nodeAt? entry.1.dropLast = some .directory))

/-- Where there is no directory, nothing is below. -/
theorem IsTree.nodeAt?_child (hTree : disk.IsTree) (hMissing : disk.nodeAt? location ≠ some .directory)
    (component : String) : disk.nodeAt? (location ++ [component]) = none := by
  by_contra hThere
  obtain ⟨node, hNode⟩ := Option.ne_none_iff_exists'.mp hThere
  rw [nodeAt?, if_neg (by simp)] at hNode
  obtain ⟨entry, hFind, -⟩ := Option.map_eq_some_iff.mp hNode
  have hEntry : entry.1 = location ++ [component] := by simpa using List.find?_some hFind
  have hParent := hTree entry (List.mem_of_find?_eq_some hFind)
  rw [hEntry, List.dropLast_concat] at hParent
  exact hMissing hParent

/-- What is placed somewhere changes nothing elsewhere. The root cannot be replaced. -/
theorem nodeAt?_place {node : DiskNode} (hLocation : location ≠ []) (other : Location) :
    (disk.place location node).nodeAt? other = if other = location then some node else disk.nodeAt? other := by
  by_cases hSame : other = location
  · rw [hSame, nodeAt?, if_neg (by simpa using hLocation)]
    simp [place]
  · have hFind : (disk.place location node).nodes.find? (fun entry => entry.1 = other) =
        disk.nodes.find? fun entry => entry.1 = other := by
      rw [place, List.find?_cons_of_neg (by simpa using fun hEq => hSame hEq.symm), List.find?_filter]
      congr 1
      funext entry
      by_cases hEntry : entry.1 = other
      · simp [hEntry, hSame]
      · simp [hEntry]
    rw [if_neg hSame, nodeAt?, nodeAt?, hFind]

/-- The root is a directory on every disk. -/
theorem ne_nil_of_nodeAt? (hFree : disk.nodeAt? location ≠ some .directory) : location ≠ [] := by
  rintro rfl
  exact hFree rfl

/-- A directory is at the location on the second disk where nothing was on the first. -/
def Created (disk after : Disk) (location : Location) : Prop :=
  disk.nodeAt? location = none ∧ after.nodeAt? location = some .directory

/-- The second disk has the same directories as the first one, and perhaps more. -/
structure KeepsDirectories (disk after : Disk) : Prop where
  home : after.home = disk.home
  kept : ∀ location, disk.nodeAt? location = some .directory → after.nodeAt? location = some .directory

theorem of_walk_cons {start : Location} {component : String} {rest : List String}
    (hWalk : disk.walk start (component :: rest) = .ok location) :
    disk.nodeAt? start = some .directory ∧ disk.walk (stepTo start component) rest = .ok location := by
  rw [walk] at hWalk
  cases hNode : disk.nodeAt? start with
  | none =>
      rw [hNode] at hWalk
      cases hWalk
  | some node =>
      rw [hNode] at hWalk
      cases node with
      | file text => cases hWalk
      | directory => exact ⟨rfl, hWalk⟩

/-- The induction is over the names that are followed: directories that were passed are still there. -/
theorem KeepsDirectories.walk (hKeeps : disk.KeepsDirectories after) {start : Location} {names : List String}
    (hWalk : disk.walk start names = .ok location) : after.walk start names = .ok location := by
  induction names generalizing start with
  | nil => exact hWalk
  | cons component rest ih =>
      obtain ⟨hStart, hRest⟩ := of_walk_cons hWalk
      rw [Disk.walk, hKeeps.kept start hStart]
      exact ih hRest

theorem locate_eq_ok_iff : disk.locate name = .ok location ↔
    name ≠ "" ∧ disk.walk (disk.base name) (PathName.components name) = .ok location := by
  rw [locate]
  split
  case isTrue hEmpty => simp [hEmpty]
  case isFalse hName => simp [hName]

theorem base_eq_of_home (hHome : after.home = disk.home) (name : String) : after.base name = disk.base name := by
  rw [base, base, hHome]

/-- A name leads to the same location as long as directories are kept. -/
theorem KeepsDirectories.locate (hKeeps : disk.KeepsDirectories after) (hLocate : disk.locate name = .ok location) :
    after.locate name = .ok location := by
  obtain ⟨hName, hWalk⟩ := locate_eq_ok_iff.mp hLocate
  refine locate_eq_ok_iff.mpr ⟨hName, ?_⟩
  rw [base_eq_of_home hKeeps.home]
  exact hKeeps.walk hWalk

/-- Placing something where no directory was keeps all directories. -/
theorem keepsDirectories_place (hFree : disk.nodeAt? location ≠ some .directory) (node : DiskNode) :
    disk.KeepsDirectories (disk.place location node) where
  home := rfl
  kept other hOther := by
    have hApart : other ≠ location := by
      rintro rfl
      exact hFree hOther
    rw [nodeAt?_place (ne_nil_of_nodeAt? hFree), if_neg hApart, hOther]

/-- The disks differ only by directories that the second one has where nothing was. -/
structure GainsDirectories (disk after : Disk) : Prop where
  home : after.home = disk.home
  nodes : ∀ location, after.nodeAt? location = disk.nodeAt? location ∨ disk.Created after location

theorem GainsDirectories.refl (disk : Disk) : disk.GainsDirectories disk :=
  ⟨rfl, fun _ => .inl rfl⟩

/-- A directory that the second step finds in place is old or was made by the first step. -/
theorem GainsDirectories.trans (hFirst : disk.GainsDirectories between) (hSecond : between.GainsDirectories after) :
    disk.GainsDirectories after where
  home := hSecond.home.trans hFirst.home
  nodes location := by
    rcases hFirst.nodes location with hSame | ⟨hNone, hMade⟩
    · rw [Created, ← hSame]
      exact hSecond.nodes location
    · rcases hSecond.nodes location with hSame | ⟨hMissing, -⟩
      · exact .inr ⟨hNone, hSame.trans hMade⟩
      · rw [hMade] at hMissing
        cases hMissing

theorem GainsDirectories.place (hFree : disk.nodeAt? location = none) :
    disk.GainsDirectories (disk.place location .directory) where
  home := rfl
  nodes other := by
    have hUsable : disk.nodeAt? location ≠ some .directory := by simp [hFree]
    rw [Created, nodeAt?_place (ne_nil_of_nodeAt? hUsable)]
    split
    case isTrue hSame => exact .inr ⟨hSame ▸ hFree, rfl⟩
    case isFalse => exact .inl rfl

/-- A directory is made only where nothing is. -/
theorem gainsDirectories_makeDirectory {start : Location} {names : List String}
    (hMade : disk.makeDirectory start names = .ok after) : disk.GainsDirectories after := by
  rw [makeDirectory] at hMade
  cases hWalk : disk.walk start names with
  | error cause =>
      rw [hWalk] at hMade
      cases hMade
  | ok location =>
      simp only [hWalk] at hMade
      cases hNode : disk.nodeAt? location with
      | none =>
          rw [hNode] at hMade
          cases hMade
          exact .place hNode
      | some node =>
          rw [hNode] at hMade
          cases hMade

/-- A directory that is there already is left alone. -/
theorem gainsDirectories_ensureDirectory (disk : Disk) (start : Location) (names : List String) :
    disk.GainsDirectories (disk.ensureDirectory start names).2 := by
  rw [ensureDirectory]
  split
  case h_1 made hMade => exact gainsDirectories_makeDirectory hMade
  case h_2 => split <;> exact .refl disk

/-- The induction is on the components: a directory is made at once, or after those above it. -/
theorem gainsDirectories_ensureDirectories (disk : Disk) (start : Location) (names : List String) :
    disk.GainsDirectories (disk.ensureDirectories start names).2 := by
  induction names with
  | nil => exact .refl disk
  | cons name above ih =>
      have hAtOnce := gainsDirectories_ensureDirectory disk start (name :: above).reverse
      rw [ensureDirectories]
      split
      · split
        case h_1 prepared hAbove =>
          rw [hAbove] at ih
          exact ih.trans (gainsDirectories_ensureDirectory prepared start (name :: above).reverse)
        case h_2 => exact ih
      · exact hAtOnce

/-- Even if it fails halfway, making directories changes nothing else. -/
theorem gainsDirectories_makeDirectories (disk : Disk) (name : String) :
    disk.GainsDirectories (disk.makeDirectories name).2 :=
  gainsDirectories_ensureDirectories disk _ _

/-- A name that demands a directory finds nothing else. -/
theorem find_eq_ok_iff {node : DiskNode} :
    disk.find name = .ok node ↔ ∃ location, disk.locate name = .ok location ∧ disk.nodeAt? location = some node ∧
      (node = .directory ∨ PathName.demandsDirectory name = false) := by
  rw [find]
  cases disk.locate name with
  | error cause => simp
  | ok location =>
      cases hNode : disk.nodeAt? location with
      | none => simp [hNode]
      | some held =>
          cases held with
          | directory => cases node <;> simp [hNode]
          | file text => cases node <;> cases PathName.demandsDirectory name <;> simp [hNode]

/-- A file is read where its name leads to one and does not demand a directory. -/
theorem readText_eq_ok_iff :
    disk.readText name = .ok text ↔ ∃ location, disk.locate name = .ok location ∧
      disk.nodeAt? location = some (.file text) ∧ PathName.demandsDirectory name = false := by
  have hFind : disk.readText name = .ok text ↔ disk.find name = .ok (.file text) := by
    rw [readText]
    cases disk.find name with
    | error cause => simp
    | ok node => cases node <;> simp
  rw [hFind, find_eq_ok_iff]
  simp

theorem present_iff : disk.present name = true ↔ ∃ node, disk.find name = .ok node := by
  rw [present]
  cases disk.find name with
  | error cause => simp
  | ok node => simp

theorem present_of_readText (hHeld : disk.readText name = .ok text) : disk.present name = true := by
  obtain ⟨location, hLocate, hNode, hDemands⟩ := readText_eq_ok_iff.mp hHeld
  exact present_iff.mpr ⟨.file text, find_eq_ok_iff.mpr ⟨location, hLocate, hNode, .inr hDemands⟩⟩

/-- A file is written where its name leads to a location without a directory and does not demand one. -/
theorem writeText_eq_ok_iff :
    disk.writeText name text = .ok after ↔ ∃ location, disk.locate name = .ok location ∧
      PathName.demandsDirectory name = false ∧ disk.nodeAt? location ≠ some .directory ∧
        disk.place location (.file text) = after := by
  rw [writeText]
  cases disk.locate name with
  | error cause => simp
  | ok location =>
      simp only [Except.ok.injEq, exists_eq_left']
      split
      case isTrue hRefused =>
        rcases hRefused with hDemands | hDirectory
        · simp [hDemands]
        · simp [hDirectory]
      case isFalse hAllowed =>
        rw [not_or, Bool.not_eq_true] at hAllowed
        simp [hAllowed]

/-- On the second disk the name leads to a file with the text, at a location where no directory was. Elsewhere the
second disk only has directories that the first one has not. -/
structure Receives (disk : Disk) (name : String) (location : Location) (text : String) (after : Disk) : Prop where
  home : after.home = disk.home
  located : after.locate name = .ok location
  named : PathName.demandsDirectory name = false
  held : after.nodeAt? location = some (.file text)
  free : disk.nodeAt? location ≠ some .directory
  elsewhere : ∀ other, other ≠ location → after.nodeAt? other = disk.nodeAt? other ∨ disk.Created after other

/-- A disk whose file holds the text already receives it as it is. -/
theorem exists_receives_of_readText (hHeld : disk.readText name = .ok text) :
    ∃ location, disk.Receives name location text disk := by
  obtain ⟨location, hLocate, hNode, hDemands⟩ := readText_eq_ok_iff.mp hHeld
  exact ⟨location, rfl, hLocate, hDemands, hNode, by simp [hNode], fun _ _ => .inl rfl⟩

/-- Directories are made first and the file is written then; both together are one change. -/
theorem GainsDirectories.exists_receives (hGains : disk.GainsDirectories between)
    (hWrite : between.writeText name text = .ok after) : ∃ location, disk.Receives name location text after := by
  obtain ⟨location, hLocate, hDemands, hFree, rfl⟩ := writeText_eq_ok_iff.mp hWrite
  have hRoot := ne_nil_of_nodeAt? hFree
  refine ⟨location, hGains.home, (keepsDirectories_place hFree _).locate hLocate, hDemands, ?_, ?_, ?_⟩
  · rw [nodeAt?_place hRoot, if_pos rfl]
  · rcases hGains.nodes location with hSame | ⟨-, hMade⟩
    · rwa [← hSame]
    · exact absurd hMade hFree
  · intro other hOther
    rw [Created, nodeAt?_place hRoot, if_neg hOther]
    exact hGains.nodes other

/-- On the second disk a name leads neither to what the output leads to nor to a directory that is new. -/
structure Apart (disk after : Disk) (output name : String) : Prop where
  file : after.locate name ≠ after.locate output
  directories : ∀ location, after.locate name = .ok location → ¬ disk.Created after location

/-- A name that leads elsewhere than the output, to something old, is apart from it. -/
theorem Apart.of_locate {output : String} {location target : Location} (hName : after.locate name = .ok location)
    (hOutput : after.locate output = .ok target) (hOther : location ≠ target) (hOld : ¬ disk.Created after location) :
    disk.Apart after output name where
  file := by
    rw [hName, hOutput]
    simpa using hOther
  directories found hFound := by
    obtain rfl := Except.ok.inj (hName.symm.trans hFound)
    exact hOld

/-- Following the components from a location never leads upwards from a directory that is new. -/
def ClimbsFrom (disk after : Disk) : Location → List String → Prop
  | _, [] => True
  | location, component :: rest =>
      (component = ".." → ¬ disk.Created after location) ∧ ClimbsFrom disk after (stepTo location component) rest

/-- Without going up, no way leads from a directory that is new to something that was there. -/
theorem IsTree.nodeAt?_of_walk_created (hTree : disk.IsTree) {start found : Location} {names : List String}
    (hStart : disk.nodeAt? start = none) (hClimbs : disk.ClimbsFrom after start names)
    (hWalk : after.walk start names = .ok found) : disk.nodeAt? found = none := by
  induction names generalizing start with
  | nil =>
      cases hWalk
      exact hStart
  | cons component rest ih =>
      obtain ⟨hDirectory, hWalk⟩ := of_walk_cons hWalk
      refine ih ?_ hClimbs.2 hWalk
      rw [stepTo]
      split
      case isTrue => exact hStart
      case isFalse =>
        split
        case isTrue hUp => exact absurd ⟨hStart, hDirectory⟩ (hClimbs.1 hUp)
        case isFalse => exact hTree.nodeAt?_child (by simp [hStart]) component

namespace Receives

variable {output : String} (hReceives : disk.Receives output location text after)

include hReceives

theorem readText_output : after.readText output = .ok text :=
  readText_eq_ok_iff.mpr ⟨location, hReceives.located, hReceives.held, hReceives.named⟩

theorem keepsDirectories : disk.KeepsDirectories after where
  home := hReceives.home
  kept other hOther := by
    have hApart : other ≠ location := by
      rintro rfl
      exact hReceives.free hOther
    rcases hReceives.elsewhere other hApart with hSame | ⟨-, hMade⟩
    · rw [hSame, hOther]
    · exact hMade

/-- Away from the output the same files are there, and they hold the same texts. -/
theorem file_iff (hOther : after.locate output ≠ .ok other) (held : String) :
    after.nodeAt? other = some (.file held) ↔ disk.nodeAt? other = some (.file held) := by
  have hLocation : other ≠ location := by
    rintro rfl
    exact hOther hReceives.located
  rcases hReceives.elsewhere other hLocation with hSame | ⟨hNone, hMade⟩
  · rw [hSame]
  · simp [hNone, hMade]

theorem readText (hApart : disk.Apart after output name) {held : String} (hHeld : disk.readText name = .ok held) :
    after.readText name = .ok held := by
  obtain ⟨other, hLocate, hNode, hDemands⟩ := readText_eq_ok_iff.mp hHeld
  have hAfter := hReceives.keepsDirectories.locate hLocate
  have hOther : after.locate output ≠ .ok other := fun hSame => hApart.file (hAfter.trans hSame.symm)
  exact readText_eq_ok_iff.mpr ⟨other, hAfter, (hReceives.file_iff hOther held).mpr hNode, hDemands⟩

/-- A way that is open now was open before, or what it leads to is new. -/
theorem walk_or_created (hTree : disk.IsTree) {start found : Location} {names : List String}
    (hClimbs : disk.ClimbsFrom after start names) (hWalk : after.walk start names = .ok found) :
    disk.walk start names = .ok found ∨ disk.nodeAt? found = none := by
  induction names generalizing start with
  | nil => exact .inl hWalk
  | cons component rest ih =>
      obtain ⟨hDirectory, hRest⟩ := of_walk_cons hWalk
      have hStart : start ≠ location := by
        rintro rfl
        rw [hReceives.held] at hDirectory
        cases hDirectory
      rcases hReceives.elsewhere start hStart with hSame | ⟨hNone, -⟩
      · rw [walk, ← hSame, hDirectory]
        exact ih hClimbs.2 hRest
      · exact .inr (hTree.nodeAt?_of_walk_created hNone hClimbs hWalk)

/-- A name that led to nothing still leads to nothing, if it is apart from what was delivered and does not go up from
a directory that is new. -/
theorem present_eq_false (hTree : disk.IsTree) (hApart : disk.Apart after output name)
    (hClimbs : disk.ClimbsFrom after (disk.base name) (PathName.components name))
    (hMissing : disk.present name = false) : after.present name = false := by
  by_contra hThere
  obtain ⟨node, hFind⟩ := present_iff.mp (Bool.of_not_eq_false hThere)
  obtain ⟨found, hLocate, hNode, hKind⟩ := find_eq_ok_iff.mp hFind
  have hOther : found ≠ location := by
    rintro rfl
    exact hApart.file (hLocate.trans hReceives.located.symm)
  have hSame : after.nodeAt? found = disk.nodeAt? found :=
    (hReceives.elsewhere found hOther).resolve_right (hApart.directories found hLocate)
  have hBefore : disk.nodeAt? found = some node := hSame.symm.trans hNode
  obtain ⟨hName, hWalk⟩ := locate_eq_ok_iff.mp hLocate
  rw [base_eq_of_home hReceives.home] at hWalk
  rcases hReceives.walk_or_created hTree hClimbs hWalk with hOpen | hNew
  · have hPresent : disk.present name = true :=
      present_iff.mpr ⟨node, find_eq_ok_iff.mpr ⟨found, locate_eq_ok_iff.mpr ⟨hName, hOpen⟩, hBefore, hKind⟩⟩
    rw [hMissing] at hPresent
    cases hPresent
  · rw [hNew] at hBefore
    cases hBefore

end Receives

end SchemaForge.Disk

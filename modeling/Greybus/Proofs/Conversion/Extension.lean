import Mathlib.Data.List.Forall2
import Greybus.Conversion.Format

/-! Which paths ask for a blob. What counts is the last name on the path: it has to be
a stem and an extension that is spelled as that of blobs, in letters of either case.
Slashes and dots behind the name lead nowhere and do not count. -/
namespace Greybus

theorem Text.splitPieces (mark : Char) (text : List Char) : split mark text = text.splitOn mark := by
  rw [List.splitOn]
  induction text with
  | nil => rfl
  | cons c rest ih =>
    rw [List.splitOnP_cons_eq_if_modifyHead, ← ih]
    simp only [split, List.foldr_cons, extend, beq_iff_eq]
    split <;> rfl

theorem Text.cutLastSingle {c : Char} {text left right : List Char} :
    cutLast? [c] text = some (left, right) ↔ text = left ++ c :: right ∧ c ∉ right := by
  rw [cutLastIff]
  constructor
  · intro h
    obtain ⟨parts, latest⟩ := h
    refine ⟨by simpa using parts, fun inside => ?_⟩
    obtain ⟨inner, after, rfl⟩ := List.append_of_mem inside
    have bound := latest (left ++ c :: inner) after (by simp [parts])
    simp only [List.length_append, List.length_cons] at bound
    omega
  · intro h
    obtain ⟨rfl, free⟩ := h
    refine ⟨by simp, fun before after other => ?_⟩
    simp only [List.append_assoc, List.singleton_append, List.append_eq_append_iff] at other
    rcases other with ⟨between, rfl, rest⟩ | ⟨between, rfl, _⟩
    · cases between with
      | nil => simp
      | cons d inner => exact absurd (by simp [(List.cons.inj rest).2]) free
    · simp

namespace Storage.Path

def lastName? (path : String) : Option (List Char) :=
  ((path.toList.splitOn '/').filter fun piece => piece ≠ [] ∧ piece ≠ ['.']).getLast?

theorem stepsPieces (path : String) : steps path =
    ((path.toList.splitOn '/').filter fun piece => piece ≠ [] ∧ piece ≠ ['.']).map String.ofList := by
  rw [steps, pieces, Text.splitPieces, List.filter_map]
  congr 1
  apply List.filter_congr
  intro piece _
  have empty : String.ofList piece = "" ↔ piece = [] := by simp
  have dot : String.ofList piece = "." ↔ piece = ['.'] := by simp [← String.toList_inj]
  simp only [Function.comp_apply, empty, dot, ne_eq, Bool.decide_and]

theorem nameFound {path name : String} :
    fileName? path = some name ↔ lastName? path = some name.toList ∧ name ≠ ".." := by
  rw [fileName?, stepsPieces, List.getLast?_map, Option.filter_eq_some_iff, Option.map_eq_some_iff]
  simp only [decide_eq_true_eq]
  refine and_congr_left fun _ => ?_
  constructor
  · intro h
    obtain ⟨chars, found, rfl⟩ := h
    rwa [String.toList_ofList]
  · intro found
    exact ⟨name.toList, found, String.ofList_toList⟩

theorem extensionFound {path extension : String} : extension? path = some extension ↔
    ∃ stem, lastName? path = some (stem ++ '.' :: extension.toList) ∧
      stem ++ '.' :: extension.toList ≠ "..".toList ∧ stem ≠ [] ∧ '.' ∉ extension.toList := by
  simp only [extension?, Option.bind_eq_bind, Option.bind_eq_some_iff, nameFound]
  constructor
  · intro h
    obtain ⟨name, ⟨found, solid⟩, ⟨stem, rest⟩, cut, last⟩ := h
    obtain ⟨parts, free⟩ := Text.cutLastSingle.mp cut
    split at last
    · contradiction
    · rename_i filled
      obtain rfl := Option.some.inj last
      rw [String.toList_ofList]
      exact ⟨stem, parts ▸ found, parts ▸ fun same => solid (String.toList_inj.mp same),
        by simpa using filled, free⟩
  · intro h
    obtain ⟨stem, found, solid, filled, free⟩ := h
    refine ⟨String.ofList (stem ++ '.' :: extension.toList), ⟨?_, ?_⟩, (stem, extension.toList), ?_, ?_⟩
    · rwa [String.toList_ofList]
    · intro same
      rw [← same, String.toList_ofList] at solid
      exact solid rfl
    · rw [String.toList_ofList]
      exact Text.cutLastSingle.mpr ⟨rfl, free⟩
    · simp [filled]

theorem stepsAppend (path rest : String) : steps (path ++ "/" ++ rest) = steps path ++ steps rest := by
  have cut : (path ++ "/" ++ rest).toList = path.toList ++ '/' :: rest.toList := by simp
  rw [steps, pieces, cut, Text.splitAppend, List.map_append, List.filter_append]
  rfl

theorem stepsIdle {idle : List String} (all : ∀ step ∈ idle, step = "/" ∨ step = "/.") (path : String) :
    steps (path ++ String.join idle) = steps path := by
  induction idle generalizing path with
  | nil => simp
  | cons step rest ih =>
    obtain ⟨first, others⟩ := List.forall_mem_cons.mp all
    have still : steps (path ++ step) = steps path := by
      rcases first with rfl | rfl
      · have nowhere := stepsAppend path ""
        rwa [String.append_empty, show steps "" = [] by decide, List.append_nil] at nowhere
      · have nowhere := stepsAppend path "."
        rwa [String.append_assoc, show steps "." = [] by decide, List.append_nil] at nowhere
    rw [String.join_cons, ← String.append_assoc, ih others, still]

end Storage.Path
open Storage

def SameLetter (c d : Char) : Prop :=
  c = d ∨ ('A' ≤ c ∧ c ≤ 'Z' ∧ d.toNat = c.toNat + 32) ∨ ('A' ≤ d ∧ d ≤ 'Z' ∧ c.toNat = d.toNat + 32)

theorem lowerNumber (c : Char) :
    c.toLower.toNat = if 'A' ≤ c ∧ c ≤ 'Z' then c.toNat + 32 else c.toNat := by
  unfold Char.toLower
  split
  · rename_i capital
    have small : c.toNat ≤ 90 := capital.2
    have sum : (c.val + 32).toNat = c.toNat + 32 :=
      (UInt32.toNat_add ..).trans (Nat.mod_eq_of_lt (by change c.toNat + 32 < _; omega))
    exact sum.trans (if_pos capital).symm
  · rename_i other
    exact (if_neg other).symm

theorem capitalIff (c : Char) : ('A' ≤ c ∧ c ≤ 'Z') ↔ 65 ≤ c.toNat ∧ c.toNat ≤ 90 := Iff.rfl

theorem lowerSame {c d : Char} : c.toLower = d.toLower ↔ SameLetter c d := by
  simp only [SameLetter, ← and_assoc, capitalIff, ← Char.toNat_inj, lowerNumber]
  split <;> split <;> omega

theorem lowerLetters {left right : List Char} :
    left.map Char.toLower = right.map Char.toLower ↔ List.Forall₂ SameLetter left right := by
  rw [← List.forall₂_eq_eq_eq, List.forall₂_map_left_iff, List.forall₂_map_right_iff]
  simp only [lowerSame]

namespace Format

def EndsPacked (path : String) : Prop :=
  ∃ stem extension : List Char, Path.lastName? path = some (stem ++ '.' :: extension) ∧ stem ≠ [] ∧
    '.' ∉ extension ∧ List.Forall₂ SameLetter extension "mnfb".toList

theorem mnfbIff {path : String} : ofPath path = .mnfb ↔ EndsPacked path := by
  have small : packedExtension.toList.map Char.toLower = packedExtension.toList := by decide
  unfold ofPath
  constructor
  · intro chosen
    split at chosen
    · rename_i extension found
      split at chosen
      · rename_i spelled
        obtain ⟨stem, last, _, filled, free⟩ := Path.extensionFound.mp found
        exact ⟨stem, extension.toList, last, filled, free, lowerLetters.mp (spelled.trans small.symm)⟩
      · contradiction
    · contradiction
  · intro h
    obtain ⟨stem, extension, last, filled, free, spelled⟩ := h
    have solid : stem ++ '.' :: extension ≠ "..".toList := by
      intro same
      have length := congrArg List.length same
      simp [spelled.length_eq] at length
    have found : Path.extension? path = some (String.ofList extension) := by
      rw [Path.extensionFound, String.toList_ofList]
      exact ⟨stem, last, solid, filled, free⟩
    rw [found]
    simp only [String.toList_ofList]
    exact if_pos ((lowerLetters.mpr spelled).trans small)

theorem ofPathIdle {idle : List String} (all : ∀ step ∈ idle, step = "/" ∨ step = "/.") (path : String) :
    ofPath (path ++ String.join idle) = ofPath path := by
  simp only [ofPath, Path.extension?, Path.fileName?, Path.stepsIdle all]

theorem formatChosen :
    (∀ path, (ofPath path = .mnfb ↔ EndsPacked path) ∧ (ofPath path = .mnfs ↔ ¬ EndsPacked path)) ∧
      (∀ (path : String) (idle : List String), (∀ step ∈ idle, step = "/" ∨ step = "/.") →
        ofPath (path ++ String.join idle) = ofPath path) ∧
      (∀ path ∈ [".mnfb", "mnfb", "..", "a.mnfb.txt", "a.mnfb/b", ""], ofPath path = .mnfs) ∧
      ∀ path ∈ ["..mnfb", "A.MnFb"], ofPath path = .mnfb := by
  refine ⟨?_, fun path idle all => ofPathIdle all path, by decide +kernel, by decide +kernel⟩
  intro path
  refine ⟨mnfbIff, ?_⟩
  rw [← mnfbIff]
  cases ofPath path <;> simp

theorem formatChosenTrailing :
    let path := "out.d/./..MnFb"
    let idle := ["/.", "/", "/."]
    EndsPacked path ∧ (∀ step ∈ idle, step = "/" ∨ step = "/.") ∧
      ofPath (path ++ String.join idle) = .mnfb ∧ ofPath path = .mnfb := by
  intro path idle
  have all : ∀ step ∈ idle, step = "/" ∨ step = "/." := by decide
  have spelled : List.Forall₂ SameLetter "MnFb".toList "mnfb".toList := lowerLetters.mp (by decide)
  have ends : EndsPacked path := ⟨['.'], "MnFb".toList, by decide +kernel, by decide, by decide, spelled⟩
  obtain ⟨chosen, still, _⟩ := formatChosen
  have packed := (chosen path).1.mpr ends
  exact ⟨ends, all, (still path idle all).trans packed, packed⟩

end Format
end Greybus

import MusicLisp.Text.ClusterClass

/-!
# Clusters

A text is cut into clusters, each what a reader takes for one character. The text is gone through once;
whether a character stays with the one before depends on its class and on what the text before ends in
(`Ending`).

* A carriage return and the line feed after it are one cluster; any other control is one by itself.
* Marks, joiners and vowel signs stay with what is before them, and a prepended sign with what is after.
* The parts of a Hangul syllable stay together, and so do regional indicators by twos.
* A pictograph stays with another that a joiner follows, and a consonant with another that a linker
  follows, marks between them or not.
* `flatten_clusters`: the clusters make up the text.
-/

namespace MusicLisp.Text

/-- What a text ends in, as far as the next character may depend on it. -/
inductive Ending where
  /-- A character of this class, with none of the below. -/
  | plain (last : ClusterClass)
  /-- Regional indicators, in an odd number or an even one. -/
  | regionals (odd : Bool)
  /-- A pictograph and marks, with a joiner after them or without. -/
  | pictograph (joined : Bool)
  /-- A consonant and marks, a linker among them or not. -/
  | consonant (linked : Bool)
deriving DecidableEq, Repr, Inhabited

namespace Ending

/-- What a text ends in after one more character. -/
def next : Ending → ClusterClass → Ending
  | regionals odd, .regional => regionals !odd
  | _, .regional => regionals true
  | _, .pictograph => pictograph false
  | _, .consonant => consonant false
  | pictograph false, .extend => pictograph false
  | pictograph false, .linker => pictograph false
  | pictograph false, .nonJoiner => pictograph false
  | pictograph false, .joiner => pictograph true
  | consonant linked, .extend => consonant linked
  | consonant linked, .joiner => consonant linked
  | consonant _, .linker => consonant true
  | _, c => plain c

/-- **Whether a character stays with the text before it.** -/
def joins : Ending → ClusterClass → Bool
  | plain .carriageReturn, .lineFeed => true
  | plain .carriageReturn, _ => false
  | plain .lineFeed, _ => false
  | plain .control, _ => false
  | _, .carriageReturn => false
  | _, .lineFeed => false
  | _, .control => false
  | _, .extend => true
  | _, .linker => true
  | _, .nonJoiner => true
  | _, .joiner => true
  | _, .spacing => true
  | plain .prepend, _ => true
  | plain .leading, c => c = .leading || c = .vowel || c = .openSyllable || c = .closedSyllable
  | plain .openSyllable, c => c = .vowel || c = .trailing
  | plain .vowel, c => c = .vowel || c = .trailing
  | plain .closedSyllable, c => c = .trailing
  | plain .trailing, c => c = .trailing
  | regionals odd, c => odd && c = .regional
  | pictograph joined, c => joined && c = .pictograph
  | consonant linked, c => linked && c = .consonant
  | plain _, _ => false

end Ending

/-- The clusters of a text that comes after one with the given ending; the first of them goes on with
`cluster`, kept last character first. -/
def clustersFrom (ending : Ending) (cluster : List Char) : List Char → List (List Char)
  | [] => [cluster.reverse]
  | c :: rest =>
    if ending.joins (.ofChar c) then clustersFrom (ending.next (.ofChar c)) (c :: cluster) rest
    else cluster.reverse :: clustersFrom (ending.next (.ofChar c)) [c] rest

/-- **The clusters of a text.** -/
def clusters : List Char → List (List Char)
  | [] => []
  | c :: rest => clustersFrom ((Ending.plain .other).next (.ofChar c)) [c] rest

theorem flatten_clustersFrom (cs : List Char) (ending : Ending) (cluster : List Char) :
    (clustersFrom ending cluster cs).flatten = cluster.reverse ++ cs := by
  induction cs generalizing ending cluster with
  | nil => simp [clustersFrom]
  | cons c rest ih =>
    unfold clustersFrom
    split <;> simp [ih]

/-- **The clusters make up the text.** -/
theorem flatten_clusters (cs : List Char) : (clusters cs).flatten = cs := by
  cases cs with
  | nil => rfl
  | cons c rest => exact flatten_clustersFrom rest _ [c]

example : clusters ['e', '\u0301', '\r', '\n', '\x08'] = [['e', '\u0301'], ['\r', '\n'], ['\x08']] := by
  decide +kernel

end MusicLisp.Text

import PocketScript.Text.Property.Break

/-! # Clusters

A cluster is what a reader takes for one character: a letter with its marks, a
syllable block, a conjunct, a flag, several pictures joined to one. `clusters`
cuts a text into them from left to right; all that decides whether the next
character belongs to the cluster under way is what that cluster ends in.
-/

namespace PocketScript.Text

/-- What the cluster under way ends in. -/
inductive ClusterEnd where
  /-- A character that nothing can follow in its cluster. -/
  | closed
  | carriageReturn
  | prepend
  | leading
  /-- A syllable block that a trailing consonant can follow. -/
  | openSyllable
  | closedSyllable
  /-- Half of a flag. -/
  | regional
  | pictograph
  /-- A picture with a joiner after it. -/
  | joinedPictograph
  | consonant
  /-- A consonant with a linker after it. -/
  | linkedConsonant
  | other
  deriving DecidableEq, Repr

namespace ClusterEnd

/-- What a cluster that starts with a character ends in at first. -/
def ofClass : BreakClass → ClusterEnd
  | .carriageReturn => .carriageReturn
  | .lineFeed | .control => .closed
  | .prepend => .prepend
  | .leading => .leading
  | .vowel | .openSyllable => .openSyllable
  | .trailing | .closedSyllable => .closedSyllable
  | .regional => .regional
  | .pictograph => .pictograph
  | .consonant => .consonant
  | .extend | .nonJoiner | .joiner | .linker | .spacing | .other => .other

/-- What the cluster ends in after a mark without a place of its own. -/
def extended : ClusterEnd → ClusterEnd
  | .pictograph => .pictograph
  | .consonant => .consonant
  | .linkedConsonant => .linkedConsonant
  | _ => .other

/-- What the cluster ends in after a joiner. -/
def joined : ClusterEnd → ClusterEnd
  | .pictograph => .joinedPictograph
  | .consonant => .consonant
  | .linkedConsonant => .linkedConsonant
  | _ => .other

/-- What the cluster ends in after a linker. -/
def linked : ClusterEnd → ClusterEnd
  | .pictograph => .pictograph
  | .consonant | .linkedConsonant => .linkedConsonant
  | _ => .other

/-- What the cluster ends in after one more character, if that belongs to it. -/
def next? : ClusterEnd → BreakClass → Option ClusterEnd
  | .carriageReturn, .lineFeed => some .closed
  | .carriageReturn, _ | .closed, _ => none
  | _, .control | _, .carriageReturn | _, .lineFeed => none
  | final, .extend => some final.extended
  | final, .joiner => some final.joined
  | final, .linker => some final.linked
  | final, .nonJoiner => some (if final = .pictograph then .pictograph else .other)
  | _, .spacing => some .other
  | .prepend, next => some (ofClass next)
  | .leading, .leading => some .leading
  | .leading, .vowel | .leading, .openSyllable => some .openSyllable
  | .leading, .closedSyllable => some .closedSyllable
  | .openSyllable, .vowel => some .openSyllable
  | .openSyllable, .trailing | .closedSyllable, .trailing => some .closedSyllable
  | .regional, .regional => some .other
  | .joinedPictograph, .pictograph => some .pictograph
  | .linkedConsonant, .consonant => some .consonant
  | _, _ => none

end ClusterEnd

/-- The rest of a cluster under way, and the clusters after it. -/
def clustersFrom (final : ClusterEnd) : List Char → List Char × List (List Char)
  | [] => ([], [])
  | character :: rest =>
    match final.next? (.ofChar character) with
    | some final =>
      let (cluster, clusters) := clustersFrom final rest
      (character :: cluster, clusters)
    | none =>
      let (cluster, clusters) := clustersFrom (.ofClass (.ofChar character)) rest
      ([], (character :: cluster) :: clusters)

/-- The clusters of a text. -/
def clusters (text : String) : List (List Char) :=
  (clustersFrom .closed text.toList).2

end PocketScript.Text

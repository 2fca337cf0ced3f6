import PocketScript.Text.Cluster
import PocketScript.Text.Width

/-! # Cells

A line that is drawn is a row of cells, one for each column. A cluster stands in
the first of its columns and covers the next one.
-/

namespace PocketScript

/-- What is drawn in one column. -/
inductive Cell where
  /-- A cluster. -/
  | holds (cluster : List Char)
  /-- Nothing, because the cluster to the left reaches into this column. -/
  | covered
  deriving DecidableEq, Repr

namespace Cell

/-- A column that shows nothing. -/
def blank : Cell := .holds [' ']

/-- One character in one column. -/
def ofChar (character : Char) : Cell := .holds [character]

/-- The cells of a cluster of some width. -/
def ofCluster (cluster : List Char) : (width : Nat) → List Cell
  | 0 => []
  | 1 => [.holds cluster]
  | width + 2 => .holds cluster :: .covered :: List.replicate width blank

/-- The cells of clusters on a line with `room` columns left of `width`. A
    cluster wider than the whole line is passed over; the first other one that
    has no room ends the line. -/
def ofClusters (width room : Nat) : List (List Char) → List Cell
  | [] => []
  | cluster :: rest =>
    let columns := Text.width cluster
    if width < columns then ofClusters width room rest
    else if room < columns then []
    else ofCluster cluster columns ++ ofClusters width (room - columns) rest

/-- The cells of texts one after the other, cut to the width of their line. No
    cluster reaches from one text into the next. -/
def ofTexts (width : Nat) (texts : List String) : List Cell :=
  ofClusters width width (texts.flatMap Text.clusters)

/-- A line that shows texts from the left, cut or filled to its width. -/
def alignLeft (width : Nat) (texts : List String) : List Cell :=
  let cells := ofTexts width texts
  cells ++ List.replicate (width - cells.length) blank

/-- A line that shows texts up to its right end, cut or filled to its width. -/
def alignRight (width : Nat) (texts : List String) : List Cell :=
  let cells := ofTexts width texts
  List.replicate (width - cells.length) blank ++ cells

end Cell

end PocketScript

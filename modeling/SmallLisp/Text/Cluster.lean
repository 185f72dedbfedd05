import SmallLisp.Text.ClusterClass

/-!
# `SmallLisp.Text.Cluster` — cutting a text into clusters

A text is cut between any two characters unless a rule says that the second belongs to the cluster of the first
(the extended grapheme clusters of Unicode). Three of the rules look further back than one character, but never
out of the cluster at hand: a flag takes two letters, a joiner joins pictographs, and a linking mark joins
consonants.

## Contents
* **Rules.** `ClusterClass.attaches` says whether a character goes on with the cluster before it.
* **Cutting** `clusters`, which loses nothing (`flatten_clusters`).
-/

namespace SmallLisp.Text

namespace ClusterClass

/-! ## Rules -/

/-- Whether a character of the class always has an edge before and after it. -/
def standsAlone : ClusterClass → Bool
  | lineFeed       => true
  | carriageReturn => true
  | control        => true
  | _              => false

/-- Whether a character of the class is a mark without room of its own; the joiner is none. -/
def isExtender : ClusterClass → Bool
  | extending => true
  | linking   => true
  | nonJoiner => true
  | _         => false

/-- Whether a character of the class attaches to whatever is before it. -/
def isTail (k : ClusterClass) : Bool := k.isExtender || k == joiner || k == spacing

/-- Whether a character of the class may stand between a consonant and another one that it is joined with. -/
def isBetweenConsonants : ClusterClass → Bool
  | extending => true
  | linking   => true
  | joiner    => true
  | _         => false

/-- Whether two parts of a syllable of Hangul belong together. -/
def joinsSyllable : ClusterClass → ClusterClass → Bool
  | leading, next        => next == leading || next == vowel || next == openSyllable || next == closedSyllable
  | openSyllable, next   => next == vowel || next == trailing
  | vowel, next          => next == vowel || next == trailing
  | closedSyllable, next => next == trailing
  | trailing, next       => next == trailing
  | _, _                 => false

/-- Whether the cluster, the latest class first, ends with the first letter of a flag. -/
def endsInHalfFlag (before : List ClusterClass) : Bool := (before.takeWhile (· == regional)).length % 2 == 1

/-- Whether the cluster, the latest class first, ends with a pictograph, its marks and a joiner. -/
def endsInJoinedPictograph : List ClusterClass → Bool
  | joiner :: before => (before.dropWhile isExtender).head? == some pictograph
  | _                => false

/-- Whether the cluster, the latest class first, ends with a consonant and marks of which one is linking. -/
def endsInLinkedConsonant (before : List ClusterClass) : Bool :=
  (before.takeWhile isBetweenConsonants).contains linking &&
    (before.dropWhile isBetweenConsonants).head? == some consonant

/-- Whether a character goes on with the cluster before it, which is given by its classes, the latest first. -/
def attaches (next : ClusterClass) (before : List ClusterClass) : Bool :=
  match before with
  | []        => false
  | last :: _ =>
    if last.standsAlone || next.standsAlone then last == carriageReturn && next == lineFeed
    else
      next.isTail || last == prepended || joinsSyllable last next ||
        (next == regional && endsInHalfFlag before) ||
        (next == pictograph && endsInJoinedPictograph before) ||
        (next == consonant && endsInLinkedConsonant before)

end ClusterClass

/-! ## Cutting -/

/-- The clusters of a text, of which the first has been begun: `current` holds its characters and `before` their
classes, the latest first. -/
def clustersFrom (current : List Char) (before : List ClusterClass) : List Char → List (List Char)
  | []      => [current.reverse]
  | c :: cs =>
    let k := ClusterClass.ofChar c
    if k.attaches before then clustersFrom (c :: current) (k :: before) cs
    else current.reverse :: clustersFrom [c] [k] cs

/-- The clusters of a text, in order. -/
def clusters : List Char → List (List Char)
  | []      => []
  | c :: cs => clustersFrom [c] [ClusterClass.ofChar c] cs

theorem flatten_clustersFrom (current : List Char) (before : List ClusterClass) (cs : List Char) :
    (clustersFrom current before cs).flatten = current.reverse ++ cs := by
  induction cs generalizing current before with
  | nil => simp [clustersFrom]
  | cons c cs ih =>
      unfold clustersFrom
      dsimp only
      split
      · rw [ih]
        simp
      · rw [List.flatten_cons, ih]
        simp

/-- No character is lost or made up. -/
theorem flatten_clusters (cs : List Char) : (clusters cs).flatten = cs := by
  cases cs with
  | nil => rfl
  | cons c cs => simp [clusters, flatten_clustersFrom]

end SmallLisp.Text

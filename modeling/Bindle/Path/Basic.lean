/-!
# Paths

A path is a text; `/` separates its components.  The text is kept as written, because that is
what messages show and what a store of files looks up.  Two paths name the same place when their
components are equal.

* `Path.components p`   `/` at the start, a leading `.`, every `..` and every name; repeated and
                        trailing `/` and all other `.` are dropped;
* `Path.join p q`       `q` seen from `p`; an absolute `q` replaces `p`;
* `Path.parent? p`      the shortest beginning of `p` that has all its components but the last;
* `Path.compare p q`    the order of sets of paths: component by component.
-/

namespace Bindle

structure Path where
  text : String
  deriving DecidableEq, Inhabited

namespace Path

inductive Component where
  | root
  | current
  | parent
  | name (text : String)
  deriving DecidableEq, Inhabited

def Component.text : Component → String
  | .root => "/"
  | .current => "."
  | .parent => ".."
  | .name s => s

/-- the parts of a text between its slashes, empty ones included -/
def pieces : List Char → List (List Char)
  | [] => [[]]
  | c :: cs =>
    if c = '/' then [] :: pieces cs
    else match pieces cs with
      | [] => [[c]]
      | p :: ps => (c :: p) :: ps

/-- the component that a piece stands for; empty pieces and `.` stand for none -/
def component? (piece : List Char) : Option Component :=
  if piece = [] ∨ piece = ['.'] then none
  else if piece = ['.', '.'] then some .parent
  else some (.name (String.ofList piece))

def isAbsolute (p : Path) : Bool := p.text.toList.head? = some '/'

def componentsOf (cs : List Char) : List Component :=
  match pieces cs with
  | [] => []
  | first :: rest =>
    if cs.head? = some '/' then .root :: rest.filterMap component?
    else if first = ['.'] then .current :: rest.filterMap component?
    else (first :: rest).filterMap component?

def components (p : Path) : List Component := componentsOf p.text.toList

/-- `p` and `q` name the same place -/
def same (p q : Path) : Bool := p.components == q.components

def join (p : Path) (q : String) : Path :=
  if q.toList.head? = some '/' then ⟨q⟩
  else if p.text = "" ∨ p.text.toList.getLast? = some '/' then ⟨p.text ++ q⟩
  else ⟨p.text ++ "/" ++ q⟩

/-- the text that lists components: the root is followed by no further separator -/
def textOf : List Component → String
  | [] => ""
  | .root :: cs => "/" ++ "/".intercalate (cs.map Component.text)
  | cs => "/".intercalate (cs.map Component.text)

def ofComponents (cs : List Component) : Path := ⟨textOf cs⟩

/-- the beginnings of a list, the shortest first -/
def beginnings {α : Type} : List α → List (List α)
  | [] => [[]]
  | a :: as => [] :: (beginnings as).map (a :: ·)

/-- nothing for the root and for the empty path -/
def parent? (p : Path) : Option Path :=
  match p.components.getLast? with
  | none => none
  | some .root => none
  | some _ =>
    let inner := p.components.dropLast
    ((beginnings p.text.toList).find? (componentsOf · == inner)).map (⟨String.ofList ·⟩)

/-- the path with `\` read as a separator too -/
def unixText (p : Path) : String :=
  String.ofList (p.text.toList.map (fun c => if c = '\\' then '/' else c))

/-! ## order -/

def Component.rank : Component → Nat
  | .root => 0
  | .current => 1
  | .parent => 2
  | .name _ => 3

/-- names are ordered by their characters, which is the order of their UTF-8 bytes -/
def Component.compare (a b : Component) : Ordering :=
  match Ord.compare a.rank b.rank with
  | .eq => Ord.compare a.text b.text
  | o => o

def compareComponents : List Component → List Component → Ordering
  | [], [] => .eq
  | [], _ :: _ => .lt
  | _ :: _, [] => .gt
  | a :: as, b :: bs =>
    match a.compare b with
    | .eq => compareComponents as bs
    | o => o

def compare (p q : Path) : Ordering := compareComponents p.components q.components

/-- adds a path to an ordered list of places; a place that is there already keeps its text -/
def insertSorted (p : Path) : List Path → List Path
  | [] => [p]
  | q :: qs =>
    match p.compare q with
    | .lt => p :: q :: qs
    | .eq => q :: qs
    | .gt => q :: insertSorted p qs

end Path

end Bindle

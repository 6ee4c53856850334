import Mathlib.Data.Finset.Basic
import PlexSpaces.Applications.Manager
import PlexSpaces.Lib.Assoc

/-!
# The order of a startup

The application controller starts an application after all that it depends on.  It builds the graph
of the dependencies, looks for a cycle by depth-first search, sorts all loaded applications by
Kahn's algorithm and keeps those that the application needs.

A `none` is a computation that panics (a degree below zero) or does not end within the given number
of nested calls or rounds.
-/

namespace PlexSpaces.Applications

open PlexSpaces.Lib

structure ApplicationSpec where
  dependencies : List String

abbrev Configs : Type := Assoc String ApplicationSpec

/-- What an application depends on, nothing if it is not loaded. -/
def dependencies (configs : Configs) (app : String) : List String :=
  ((configs.lookup app).map ApplicationSpec.dependencies).getD []

/-! ## The graph -/

/-- `graph` leads from an application to its dependencies, `reverse` to its dependents. -/
structure DependencyGraph where
  graph : Assoc String (List String)
  reverse : Assoc String (List String)

def DependencyGraph.successors (g : DependencyGraph) (app : String) : List String :=
  (g.graph.lookup app).getD []

def DependencyGraph.dependents (g : DependencyGraph) (app : String) : List String :=
  (g.reverse.lookup app).getD []

def notLoaded (app dep : String) : ApplicationError :=
  .startupFailed ("Application " ++ app ++ " depends on " ++ dep ++ " which is not loaded")

/-- `reverse_graph.entry(dep).or_default().push(app)`. -/
def addDependent (app : String) (reverse : Assoc String (List String)) (dep : String) :
    Assoc String (List String) :=
  reverse.insert dep ((reverse.lookup dep).getD [] ++ [app])

def addApplication (configs : Configs) (g : DependencyGraph)
    (entry : Sigma fun _ : String => ApplicationSpec) : Except ApplicationError DependencyGraph :=
  match entry.2.dependencies.find? fun dep => dep ∉ configs with
  | some dep => .error (notLoaded entry.1 dep)
  | none =>
      .ok ⟨g.graph.insert entry.1 entry.2.dependencies,
        entry.2.dependencies.foldl (addDependent entry.1) g.reverse⟩

def buildDependencyGraph (configs : Configs) : Except ApplicationError DependencyGraph :=
  configs.entries.foldlM (addApplication configs) ⟨∅, ∅⟩

/-! ## Search -/

structure Marks where
  visited : Finset String
  recStack : Finset String

/-- The loop of `has_cycle` over the dependencies, `visit` for its nested calls. -/
def hasCycleLoop (visit : String → Marks → Option (Bool × Marks)) :
    List String → Marks → Option (Bool × Marks)
  | [], m => some (false, m)
  | dep :: deps, m =>
      if dep ∉ m.visited then
        match visit dep m with
        | some (false, m') => hasCycleLoop visit deps m'
        | stopped => stopped
      else if dep ∈ m.recStack then some (true, m)
      else hasCycleLoop visit deps m

/-- At most `depth` calls are nested. -/
def hasCycle (g : DependencyGraph) : Nat → String → Marks → Option (Bool × Marks)
  | 0, _, _ => none
  | depth + 1, node, m =>
      match hasCycleLoop (hasCycle g depth) (g.successors node)
          ⟨insert node m.visited, insert node m.recStack⟩ with
      | some (false, m') => some (false, { m' with recStack := m'.recStack.erase node })
      | stopped => stopped

/-- The loop of `collect_dependencies`, `visit` for its nested calls. -/
def collectLoop (visit : String → Finset String → Option (Finset String)) :
    List String → Finset String → Option (Finset String)
  | [], found => some found
  | dep :: deps, found =>
      if dep ∈ found then collectLoop visit deps found
      else
        match visit dep (insert dep found) with
        | some found' => collectLoop visit deps found'
        | none => none

/-- At most `depth` calls are nested. -/
def collectDependencies (g : DependencyGraph) :
    Nat → String → Finset String → Option (Finset String)
  | 0, _, _ => none
  | depth + 1, name, found =>
      collectLoop (collectDependencies g depth) (g.successors name) found

/-! ## Sorting -/

/-- The state of Kahn's algorithm. -/
structure Sorting where
  queue : List String
  inDegree : Assoc String Nat
  result : List String

/-- An application is counted, and queued when it has no dependencies. -/
def Sorting.count (g : DependencyGraph) (k : Sorting) (app : String) : Sorting :=
  let degree := (g.successors app).length
  { k with
    inDegree := k.inDegree.insert app degree
    queue := if degree = 0 then k.queue ++ [app] else k.queue }

/-- One dependency of `dependent` is done; `none` when there was none left. -/
def Sorting.release (k : Sorting) (dependent : String) : Option Sorting :=
  match k.inDegree.lookup dependent with
  | none => some k
  | some 0 => none
  | some (degree + 1) =>
      some { k with
        inDegree := k.inDegree.insert dependent degree
        queue := if degree = 0 then k.queue ++ [dependent] else k.queue }

/-- At most `rounds` turns of the loop. -/
def Sorting.process (g : DependencyGraph) : Nat → Sorting → Option (List String)
  | 0, _ => none
  | rounds + 1, k =>
      match k.queue with
      | [] => some k.result
      | current :: queue =>
          match (g.dependents current).foldlM Sorting.release
              { k with queue := queue, result := k.result ++ [current] } with
          | some k' => process g rounds k'
          | none => none

def topologicalOrder (g : DependencyGraph) (configs : Configs) : Option (List String) :=
  Sorting.process g (configs.keys.length + 1)
    (configs.keys.foldl (Sorting.count g) ⟨[], ∅, []⟩)

/-- `name` is moved to the end. -/
def moveToEnd (name : String) (order : List String) : List String :=
  if name ∈ order then order.erase name ++ [name] else order ++ [name]

def circular (name : String) : ApplicationError :=
  .startupFailed ("Circular dependency detected involving application: " ++ name)

/-- The configurations are read three times, and others may load applications in between:
`checked` to find the application, `built` for the graph and `counted` for the degrees. -/
def resolveStartupOrder (checked built counted : Configs) (name : String) :
    Option (Except ApplicationError (List String)) :=
  if name ∉ checked then some (.error (.notFound name))
  else
    match buildDependencyGraph built with
    | .error e => some (.error e)
    | .ok g => do
        let (cyclic, _) ← hasCycle g built.keys.length name ⟨∅, ∅⟩
        if cyclic then return .error (circular name)
        let sorted ← topologicalOrder g counted
        let found ← collectDependencies g (built.keys.length + 1) name ∅
        let toInclude := insert name found
        return .ok (moveToEnd name (sorted.filter fun app => app ∈ toInclude))

end PlexSpaces.Applications

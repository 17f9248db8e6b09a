import BootImage.Path.Basic

/-!
# The dependency graph of a project

The packages that a build uses and the edges between them. The project's own package is the root.
Identifiers may occur more than once in a graph that comes from outside; every search takes the
first match. Identifiers and names are the same if their code units are.
-/

namespace BootImage

/-- A dependency of a package: the name it goes by there, and the package it leads to. -/
structure DependencyEdge where
  name : WideText
  pkgId : WideText
  deriving DecidableEq, Repr

structure DependencyNode where
  id : WideText
  deps : List DependencyEdge
  deriving DecidableEq, Repr

structure PackageInfo where
  id : WideText
  name : WideText
  manifestPath : WideText
  deriving DecidableEq, Repr

/-- The packages of a build and their dependencies. A workspace without a package of its own has no
root. -/
structure DependencyGraph where
  root : Option WideText
  nodes : List DependencyNode
  packages : List PackageInfo
  deriving DecidableEq, Repr

namespace DependencyGraph

def node? (g : DependencyGraph) (id : WideText) : Option DependencyNode :=
  g.nodes.find? fun n => n.id == id

def package? (g : DependencyGraph) (id : WideText) : Option PackageInfo :=
  g.packages.find? fun p => p.id == id

def dependencyId? (g : DependencyGraph) (name : WideText) : Option WideText := do
  let node ← g.node? (← g.root)
  let edge ← node.deps.find? fun e => e.name == name
  return edge.pkgId

def rootName? (g : DependencyGraph) : Option WideText := do
  let package ← g.package? (← g.root)
  return package.name

def sourceDir? (g : DependencyGraph) (id : WideText) : Option WideText :=
  (g.package? id).map fun p => Path.wideDirname p.manifestPath

end DependencyGraph

end BootImage

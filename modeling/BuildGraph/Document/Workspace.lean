import BuildGraph.Document.Target
import BuildGraph.Workspace

/-!
# Documents of workspaces and projects
-/

namespace BuildGraph

instance : Documented ProjectOrigin := .ofVocabulary

namespace Project

def encode (p : Project) : Document :=
  .record [
    ("path", BuildGraph.encode p.path),
    ("name", .text p.name),
    ("kind", BuildGraph.encode p.origin),
    ("targets", BuildGraph.encode p.targets)]

def fields : FieldReader Project := do
  return {
    path := ← .required "path"
    name := ← .required "name"
    origin := ← .withDefault "kind" .localProject
    targets := ← .withDefault "targets" [] }

end Project

instance : Documented Project := ⟨Project.encode, Project.fields.read? true⟩

namespace Workspace

def encode (w : Workspace) : Document :=
  .record [
    ("path", BuildGraph.encode w.path),
    ("name", .text w.name),
    ("projects", BuildGraph.encode w.projects)]

def fields : FieldReader Workspace := do
  return {
    path := ← .required "path"
    name := ← .required "name"
    projects := ← .withDefault "projects" [] }

end Workspace

instance : Documented Workspace := ⟨Workspace.encode, Workspace.fields.read? true⟩

end BuildGraph

import RegAtlas.Output.CHeader
import RegAtlas.Output.KernelHeader
import RegAtlas.Output.RegisterDoc
import RegAtlas.Output.VhdlPackage

/-!
# Kinds of generated texts
-/

namespace RegAtlas

/-- The texts that are generated for a memory map. -/
inductive OutputKind where
  | cHeader
  | kernelHeader
  | vhdlPackage
  | registerDoc
  deriving DecidableEq, Inhabited, Repr

namespace OutputKind

/-- The names of a kind, the main one first. -/
def names : OutputKind → List String
  | cHeader => ["c_header", "c", "header"]
  | kernelHeader => ["kernel_header", "kernel"]
  | vhdlPackage => ["vhdl_package", "vhdl"]
  | registerDoc => ["register_doc", "doc", "latex"]

/-- The kind with a name. -/
def ofName? (name : String) : Option OutputKind :=
  [cHeader, kernelHeader, vhdlPackage, registerDoc].find? fun kind => kind.names.contains name

/-- Generates the text of a kind. -/
def generate (kind : OutputKind) (o : OutputOptions) (doc : RegisterDoc.DocOptions)
    (c : Component) : Except OutputError String :=
  match kind with
  | cHeader => CHeader.generate o c
  | kernelHeader => KernelHeader.generate o c
  | vhdlPackage => VhdlPackage.generate o c
  | registerDoc => RegisterDoc.generate o doc c

end OutputKind

end RegAtlas

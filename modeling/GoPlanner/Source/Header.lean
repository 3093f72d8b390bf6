import GoPlanner.Source.Lexeme

/-!
# Source Headers

The header of a source file is its package clause and the import declarations that
follow it. Reading stops at the first lexeme that continues neither, so nothing behind
the imports matters.

    header      ::= "package" word declaration*
    declaration ::= ";" | "import" spec | "import" "(" (";" | spec)* ")"
    spec        ::= (word | ".")? text

## Main definitions

* `Import` and `Header`: what a header says.
* `readDeclarations`, `readDeclaration`, `readBlock`, `readImportPath`: the states of the
  reader, each a function of the lexemes still to come.
* `scanHeader`: the header of a source text.
-/

namespace GoPlanner

/-- **One import** of a source file. -/
structure Import where
  /-- The local name, `_` or `.`, if one is written. -/
  alias? : Option String
  /-- The import path. -/
  path : String
  /-- The line on which the import path is expected. -/
  line : Nat
deriving DecidableEq, Inhabited

/-- **The header** of a source file. -/
structure Header where
  /-- The name of the package clause. -/
  package : String
  /-- The imports, in the order of the text. -/
  imports : List Import
deriving DecidableEq, Inhabited

/-- Adds an import in front of those read later, unless its path is empty. -/
def withImport (i : Import) (line : Nat) (later : Except ScanError (List Import)) :
    Except ScanError (List Import) :=
  if i.path = "" then .error ⟨line, .emptyImportPath⟩ else later.map (i :: ·)

/-- The fault of a spec without a path. -/
def noImportPath (line : Nat) : Except ScanError (List Import) :=
  .error ⟨line, .noImportPath⟩

mutual

/-- **Between declarations.** Semicolons are skipped, the word `import` starts a
declaration, and anything else ends the header. -/
def readDeclarations : Lexemes → Except ScanError (List Import)
  | .cons .semicolon _ tail => readDeclarations tail
  | .cons (.word w) _ tail => if w = "import" then readDeclaration tail else .ok []
  | .cons _ _ _ => .ok []
  | .done _ => .ok []
  | .fault e => .error e

/-- **After the word `import`:** a block in parentheses, or one spec. -/
def readDeclaration : Lexemes → Except ScanError (List Import)
  | .cons .opening _ tail => readBlock tail
  | .cons (.word w) line tail => readImportPath false w line tail
  | .cons .dot line tail => readImportPath false "." line tail
  | .cons (.text path) line tail => withImport ⟨none, path, line⟩ line (readDeclarations tail)
  | .cons _ line _ => noImportPath line
  | .done line => noImportPath line
  | .fault e => .error e

/-- **Inside a block:** specs and semicolons up to the closing parenthesis. -/
def readBlock : Lexemes → Except ScanError (List Import)
  | .cons .semicolon _ tail => readBlock tail
  | .cons .closing _ tail => readDeclarations tail
  | .cons (.word w) line tail => readImportPath true w line tail
  | .cons .dot line tail => readImportPath true "." line tail
  | .cons (.text path) line tail => withImport ⟨none, path, line⟩ line (readBlock tail)
  | .cons _ line _ => noImportPath line
  | .done line => .error ⟨line, .openBlock⟩
  | .fault e => .error e

/-- **After a local name,** inside a block or not: the import path. -/
def readImportPath (inBlock : Bool) (name : String) (nameLine : Nat) :
    Lexemes → Except ScanError (List Import)
  | .cons (.text path) line tail =>
    withImport ⟨some name, path, nameLine⟩ line
      (if inBlock then readBlock tail else readDeclarations tail)
  | .cons _ line _ => noImportPath line
  | .done line => noImportPath line
  | .fault e => .error e

end

/-- The name of the package and the imports, after the word `package`. -/
def readPackageName : Lexemes → Except ScanError Header
  | .cons (.word w) line tail =>
    if w = "_" then .error ⟨line, .noPackageName⟩
    else (readDeclarations tail).map (⟨w, ·⟩)
  | .cons _ line _ => .error ⟨line, .noPackageName⟩
  | .done line => .error ⟨line, .noPackageName⟩
  | .fault e => .error e

/-- **The header that a sequence of lexemes starts with.** -/
def readHeader : Lexemes → Except ScanError Header
  | .cons (.word w) line tail =>
    if w = "package" then readPackageName tail else .error ⟨line, .noPackage⟩
  | .cons _ line _ => .error ⟨line, .noPackage⟩
  | .done line => .error ⟨line, .noPackage⟩
  | .fault e => .error e

/-- **The header of a source text,** after a byte order mark if there is one. -/
def scanHeader (src : String) : Except ScanError Header :=
  readHeader (lexemes (Text.dropByteOrderMark src.toList) 1)

end GoPlanner

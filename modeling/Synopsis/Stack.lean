import Synopsis.Table
import Synopsis.Text.Lower
/-!
# The tech stack

Tags for languages, frameworks and tools. A rule fires when one of its keys is among the file
extensions or among the names of the dependencies in lower case. The tags come in the order of
the rules; a rule whose source is neither never fires.
-/

namespace Synopsis

structure Dependencies where
  manager : Option String := none
  production : Table String := []
  development : Table String := []
  deriving DecidableEq, Repr

namespace Stack

inductive Source where
  | extension
  | dependency
  /-- A source of another name, in which nothing is ever found. -/
  | unknown
  deriving DecidableEq, Repr

/-- A tag with the keys of which one has to be observed. -/
structure Rule where
  tag : String
  source : Source
  keys : List String
  deriving DecidableEq, Repr

/-- The rules for languages, frameworks and tools. -/
def rules : List Rule :=
  [⟨"JavaScript", .extension, [".js", ".mjs", ".cjs"]⟩,
    ⟨"TypeScript", .extension, [".ts", ".tsx"]⟩,
    ⟨"Python", .extension, [".py"]⟩,
    ⟨"Go", .extension, [".go"]⟩,
    ⟨"Rust", .extension, [".rs"]⟩,
    ⟨"React", .dependency, ["react", "react-dom"]⟩,
    ⟨"Vue", .dependency, ["vue"]⟩,
    ⟨"Angular", .dependency, ["@angular/core"]⟩,
    ⟨"Next.js", .dependency, ["next"]⟩,
    ⟨"Express", .dependency, ["express"]⟩,
    ⟨"Fastify", .dependency, ["fastify"]⟩,
    ⟨"NestJS", .dependency, ["nestjs", "@nestjs/core"]⟩,
    ⟨"FastAPI", .dependency, ["fastapi"]⟩,
    ⟨"Django", .dependency, ["django"]⟩,
    ⟨"Flask", .dependency, ["flask"]⟩,
    ⟨"Webpack", .dependency, ["webpack"]⟩,
    ⟨"Vite", .dependency, ["vite"]⟩,
    ⟨"Jest", .dependency, ["jest"]⟩,
    ⟨"Mocha", .dependency, ["mocha"]⟩,
    ⟨"Tailwind CSS", .dependency, ["tailwindcss"]⟩,
    ⟨"pytest", .dependency, ["pytest"]⟩]

/-- The names of all dependencies, in lower case. -/
def names (dependencies : Dependencies) : List String :=
  (dependencies.production.names ++ dependencies.development.names).map Text.lower

def Rule.fires (rule : Rule) (extensions dependencyNames : List String) : Bool :=
  rule.keys.any fun key =>
    match rule.source with
    | .extension => extensions.contains key
    | .dependency => dependencyNames.contains key
    | .unknown => false

/-- The tags of the rules that fire, in the order of the rules. -/
def detect (table : List Rule) (extensions : List String) (dependencies : Dependencies) :
    List String :=
  let observed := names dependencies
  (table.filter (·.fires extensions observed)).map Rule.tag

end Stack

end Synopsis

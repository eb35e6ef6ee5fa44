import PhraseCatalog.Json.Printer

/-! The generated data module: one constant that holds all translations. -/

set_option autoImplicit false

namespace PhraseCatalog.Emit

/-- Phrases with their translation records, each phrase once, in the order of their discovery. -/
abbrev Catalog : Type := List (String × Json.Value)

/-- The value of the constant. -/
def dataPayload (catalog : Catalog) : String := (Json.Value.obj catalog).render .tabs

def dataModule (catalog : Catalog) : String :=
  "export const i18nSource = " ++ dataPayload catalog ++ ";\n"

end PhraseCatalog.Emit

import TraceProfile.Json.Value

/-!
# The layout of emitted tables

An emitted table is an object of two fields: `schema` gives the position of each column, and `data`
lists the rows, each an array with one cell per column.
-/

namespace TraceProfile

/-- A table with the given column names and rows. -/
def tableJson (columns : List String) (rows : List Json) : Json :=
  .obj [("schema", .obj (columns.zipIdx.map fun (name, position) => (name, .nat position))),
    ("data", .arr rows)]

end TraceProfile

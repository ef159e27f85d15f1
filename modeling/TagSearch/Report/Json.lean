import TagSearch.Json
import TagSearch.Query.Error
import TagSearch.Scan.Item

/-!
# Queries as JSON

A query is written as an object with its tags, its groups, its fields sorted by key, and its tag
count.
-/

namespace TagSearch

/-- Items by clause. -/
def Json.clauses (must mustNot should : List Json) : Json :=
  .obj [("must", .arr must), ("must_not", .arr mustNot), ("should", .arr should)]

/-- A range as an object with the name of its form. -/
def Range.toJson {α : Type} (f : α → Json) : Range α → Json
  | eq v => .obj [("eq", f v)]
  | gt v => .obj [("gt", f v)]
  | gte v => .obj [("gte", f v)]
  | lt v => .obj [("lt", f v)]
  | lte v => .obj [("lte", f v)]
  | between lo hi => .obj [("between", .arr [f lo, f hi])]
  | oneOf vs => .obj [("in", .arr (vs.map f))]

/-- An instant in its written form. -/
def Instant.toJson (t : Instant) : Json :=
  .str t.text

/-- A value. -/
def Value.toJson : Value → Json
  | int n => .int n
  | bool b => .bool b
  | text t => .str t
  | texts ts => .texts ts
  | lock l => .word l.name
  | intRange r => r.toJson .int
  | floatRange r => r.toJson .float
  | timeRange r => r.toJson Instant.toJson

/-- What a field holds. -/
def FieldValue.toJson : FieldValue → Json
  | values vs => .arr (vs.map Value.toJson)
  | single v => v.toJson
  | presence p => .word p.name

/-- Fields, sorted by key. -/
def Fields.toJson (fields : Fields) : Json :=
  .obj (fields.sorted.map fun (key, value) => (key, value.toJson))

mutual

/-- A query. -/
def Query.toJson : Query → Json
  | ⟨tags, ⟨must, mustNot, should⟩, fields, tagCount⟩ =>
    .obj [
      ("tags", .clauses (tags.must.map .str) (tags.mustNot.map .str) (tags.should.map .str)),
      ("groups", .clauses (GroupEntry.toJsons must) (GroupEntry.toJsons mustNot)
        (GroupEntry.toJsons should)),
      ("metatags", fields.toJson),
      ("tag_count", .int tagCount)]

/-- A group. -/
def GroupEntry.toJson : GroupEntry → Json
  | .unparsed source => .obj [("unparsed", .str source)]
  | .parsed query => .obj [("parsed", query.toJson)]
  | .exceeded max query =>
    .obj [("exceeded",
      .obj [("message", .str (QueryError.countMessage max)), ("query", query.toJson)])]

/-- Groups. -/
def GroupEntry.toJsons : List GroupEntry → List Json
  | [] => []
  | group :: rest => group.toJson :: GroupEntry.toJsons rest

end

mutual

/-- An item of a scan: a tag, or a list of items. -/
def Scan.Item.toJson : Scan.Item → Json
  | .tag text => .str text
  | .nested items => .arr (Scan.Item.toJsons items)

/-- Items of a scan. -/
def Scan.Item.toJsons : List Scan.Item → List Json
  | [] => []
  | item :: rest => item.toJson :: Scan.Item.toJsons rest

end

end TagSearch

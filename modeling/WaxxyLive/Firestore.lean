import Mathlib.Data.List.AList
import WaxxyLive.Lib.Separated

/-!
# Firestore, as the app uses it

Documents are field maps, collections are id-keyed documents, and a database
is its collections by path. Paths follow `ResourcePath::FromString` and
`DocumentReference::DocumentReference` of the vendored SDK: slashes cut a path
into segments, and a document path has an even number of them. The three
writes are `setData` (full overwrite), `setData(merge: true)` (field-wise
patch, creating a missing document) and `updateData` with `FieldValue.delete()`
(which fails on a missing document). A query is exact: it returns the documents
whose field is the given text.
-/

namespace WaxxyLive.Firestore

/-- Field values, down to the kinds the app writes or casts to. -/
inductive Value where
  | null
  | boolean (b : Bool)
  | number (q : Rat)
  | string (s : String)
  | array (xs : List Value)
  | map (fields : List ((_ : String) × Value))

namespace Value

/-- `as? String` -/
def asString : Value → Option String
  | .string s => some s
  | _ => none

/-- `as? [String]`: every element has to be a string. -/
def asStrings : Value → Option (List String)
  | .array xs => xs.mapM asString
  | _ => none

/-- `as? [String: Any]` -/
def asMap : Value → Option (List ((_ : String) × Value))
  | .map fields => some fields
  | _ => none

@[simp] theorem asString_string (s : String) : (string s).asString = some s := rfl
@[simp] theorem asMap_map (fields : List ((_ : String) × Value)) :
    (map fields).asMap = some fields := rfl

@[simp] theorem asStrings_array_string (xs : List String) :
    (array (xs.map string)).asStrings = some xs := by
  induction xs with
  | nil => rfl
  | cons x xs ih =>
    simp only [asStrings] at ih
    simp [asStrings, List.mapM_cons, ih]

end Value

abbrev Document := AList fun _ : String => Value
abbrev Collection := AList fun _ : String => Document

theorem dlookup_cons (field key : String) (v : Value) (fields : List ((_ : String) × Value)) :
    (⟨key, v⟩ :: fields : List ((_ : String) × Value)).dlookup field =
      if field = key then some v else fields.dlookup field := by
  by_cases h : field = key
  · subst h
    simp
  · simp [h]

/-- A collection path and a document id below it. -/
structure DocumentReference where
  parent : List String
  id : String
  deriving DecidableEq, Repr

abbrev Database := AList fun _ : List String => Collection

/-! ## Paths -/

/-- `path.find("//") != npos` -/
def hasDoubleSlash : List Char → Bool
  | '/' :: '/' :: _ => true
  | _ :: cs => hasDoubleSlash cs
  | [] => false

/-- `ResourcePath::FromString`; `none` is its assertion failure. -/
def resourcePath (path : String) : Option (List String) :=
  if hasDoubleSlash path.toList then none
  else some ((Separated.components '/' path).filter (· ≠ ""))

/-- `CollectionReference::Document`; `none` is the `HARD_FAIL` on a path that
does not have an even number of segments. -/
def document (collection : List String) (documentPath : String) : Option DocumentReference :=
  (resourcePath documentPath).bind fun sub =>
    let path := collection ++ sub
    if path.length % 2 = 0 then path.getLast?.map fun id => ⟨path.dropLast, id⟩ else none

example : document ["hosts"] "dj" = some ⟨["hosts"], "dj"⟩ := by decide
example : document ["hosts"] "" = none := by decide
example : document ["hosts"] "a/b/c" = some ⟨["hosts", "a", "b"], "c"⟩ := by decide

/-- A document below a collection keeps the collection as the first part of its path. -/
theorem document_parent_head {c path : String} {ref : DocumentReference}
    (h : document [c] path = some ref) : ref.parent.head? = some c := by
  obtain ⟨sub, -, h⟩ := Option.bind_eq_some_iff.mp h
  simp only [List.singleton_append] at h
  split at h
  case isFalse => simp at h
  case isTrue heven =>
    obtain ⟨id, -, rfl⟩ := Option.map_eq_some_iff.mp h
    cases sub with
    | nil => simp at heven
    | cons seg sub => simp [List.dropLast]

/-- A document is in the collection itself exactly when its path is one segment. -/
theorem document_in_collection_iff {c path id : String} :
    document [c] path = some ⟨[c], id⟩ ↔ resourcePath path = some [id] := by
  constructor
  · intro h
    obtain ⟨sub, hsub, h⟩ := Option.bind_eq_some_iff.mp h
    simp only [List.singleton_append] at h
    split at h
    case isFalse => simp at h
    case isTrue =>
      obtain ⟨last, hlast, href⟩ := Option.map_eq_some_iff.mp h
      obtain ⟨hparent, rfl⟩ := DocumentReference.mk.inj href
      cases sub with
      | nil => simp at hparent
      | cons seg sub =>
        have hnil : sub = [] := by
          cases sub with
          | nil => rfl
          | cons seg' sub => simp at hparent
        subst hnil
        rw [hsub]
        simpa using hlast
  · intro h
    simp [document, h]

/-! ## Reading and writing documents -/

namespace Database

def collection (db : Database) (path : List String) : Collection := (db.lookup path).getD ∅

def get (db : Database) (ref : DocumentReference) : Option Document :=
  (db.collection ref.parent).lookup ref.id

/-- `setData(data)` -/
def setData (db : Database) (ref : DocumentReference) (data : Document) : Database :=
  db.insert ref.parent ((db.collection ref.parent).insert ref.id data)

@[simp] theorem collection_setData (db : Database) (ref : DocumentReference) (data : Document)
    (path : List String) : (db.setData ref data).collection path =
      if path = ref.parent then (db.collection path).insert ref.id data
      else db.collection path := by
  by_cases h : path = ref.parent
  · subst h
    simp [collection, setData]
  · simp [collection, setData, h, AList.lookup_insert_ne h]

@[simp] theorem get_setData (db : Database) (ref r : DocumentReference) (data : Document) :
    (db.setData ref data).get r = if r = ref then some data else db.get r := by
  obtain ⟨p, i⟩ := ref
  obtain ⟨q, j⟩ := r
  by_cases hp : q = p
  · subst hp
    by_cases hi : j = i
    · subst hi
      simp [get]
    · simp [get, hi, AList.lookup_insert_ne hi]
  · simp [get, hp]

end Database

/-! ## Merging -/

mutual

/-- The value a merge leaves where `old` was: a non-empty map is merged field by
field into the map that was there, anything else replaces it. -/
def Value.mergeInto (old : Option Value) : Value → Value
  | .map [] => .map []
  | .map (f :: fs) => .map (mergeFields ((old.bind Value.asMap).getD []) (f :: fs))
  | v => v

def mergeFields (fields : List ((_ : String) × Value)) :
    List ((_ : String) × Value) → List ((_ : String) × Value)
  | [] => fields
  | ⟨k, v⟩ :: rest =>
    mergeFields (fields.kinsert k (v.mergeInto (fields.dlookup k))) rest

end

/-- `PatchMutation::PatchObject` under the field mask of `data`. -/
def patchObject (obj : Document) (data : List ((_ : String) × Value)) : Document :=
  data.foldl (fun obj f => obj.insert f.1 (f.2.mergeInto (obj.lookup f.1))) obj

namespace Database

/-- `setData(data, merge: true)`: no precondition, a missing document is created. -/
def setDataMerge (db : Database) (ref : DocumentReference) (data : List ((_ : String) × Value)) :
    Database :=
  db.setData ref (patchObject ((db.get ref).getD ∅) data)

/-- `updateData([field: FieldValue.delete()])`; `none` is the error on a missing document. -/
def updateDataDelete (db : Database) (ref : DocumentReference) (field : String) : Option Database :=
  (db.get ref).map fun doc => db.setData ref (doc.erase field)

end Database

/-! ## Queries -/

/-- `data[field] as? String` -/
def Document.string? (data : Document) (field : String) : Option String :=
  (data.lookup field).bind Value.asString

/-- `data[field] as? [String]` -/
def Document.strings? (data : Document) (field : String) : Option (List String) :=
  (data.lookup field).bind Value.asStrings

/-- `collection.whereField(field, isEqualTo: text)`: the matching documents with their ids. -/
def Collection.whereField (c : Collection) (field text : String) : List ((_ : String) × Document) :=
  c.entries.filter fun d => d.2.string? field = some text

theorem Collection.mem_whereField {c : Collection} {field text id : String} {data : Document} :
    ⟨id, data⟩ ∈ c.whereField field text ↔
      c.lookup id = some data ∧ data.string? field = some text := by
  simp [whereField, ← AList.mem_lookup_iff]

/-- When `id` is the only document whose field is `text`, the query returns exactly it. -/
theorem Collection.whereField_eq_singleton {c : Collection} {field text id : String}
    {data : Document} (hmem : c.lookup id = some data) (htext : data.string? field = some text)
    (huniq : ∀ id' data', c.lookup id' = some data' → data'.string? field = some text → id' = id) :
    c.whereField field text = [⟨id, data⟩] := by
  have hmem' : ⟨id, data⟩ ∈ c.whereField field text := mem_whereField.mpr ⟨hmem, htext⟩
  have hnd : (c.whereField field text).Nodup := (AList.nodupKeys c).nodup.filter _
  have hall : ∀ d ∈ c.whereField field text, d = ⟨id, data⟩ := by
    rintro ⟨id', data'⟩ hd
    obtain ⟨hl, ht⟩ := mem_whereField.mp hd
    obtain rfl := huniq id' data' hl ht
    rw [hmem] at hl
    simp [Option.some.inj hl]
  cases hq : c.whereField field text with
  | nil => simp [hq] at hmem'
  | cons d rest =>
    rw [hq] at hall hnd
    obtain rfl := hall d (by simp)
    cases rest with
    | nil => rfl
    | cons d' rest =>
      have hd' := hall d' (by simp)
      simp [hd'] at hnd

end WaxxyLive.Firestore

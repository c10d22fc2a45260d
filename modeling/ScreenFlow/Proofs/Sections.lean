import ScreenFlow.Proofs.DocumentLines

/-!
# Written sections read back

A document of sections, each with its fields one on a line, is read as the
tables that it was written from.  The sections and the fields of each of them
have different names, and every value is read back on its own.
-/

namespace ScreenFlow

namespace Toml

/-! ## Sections -/

/-- A field with its value and with how the value is written. -/
structure Field where
  name : String
  written : String
  meant : ValueTree

structure Section where
  name : String
  fields : List Field

namespace Section

def text (part : Section) : String :=
  Settings.sectionText part.name
    (part.fields.map fun field => (field.name, field.written))

/-- The table that a section is written from. -/
def table (part : Section) : String × ValueTree :=
  (part.name,
    .table (part.fields.map fun field => (field.name, field.meant)))

def statements (part : Section) : List Statement :=
  .table [part.name] ::
    part.fields.map fun field => .entry [field.name] field.meant

/-- The lines of a section with what they say. -/
def lines (part : Section) : List Line :=
  ('[' :: (part.name.toList ++ [']']), some (.table [part.name])) ::
    part.fields.map fun field =>
      (field.name.toList ++ (' ' :: '=' :: ' ' :: field.written.toList),
        some (.entry [field.name] field.meant))

/-- All names can stand without quotes, each but once, and all values can be
read. -/
structure IsReadable (part : Section) : Prop where
  isBare : IsBareKey part.name
  fields : ∀ field ∈ part.fields,
    IsBareKey field.name ∧ ReadsAs field.written.toList field.meant
  distinct : (part.fields.map Field.name).Nodup

/-- The lines of sections, with an empty line between them. -/
def allLines : List Section → List Line
  | [] => []
  | [part] => part.lines
  | part :: next :: rest => part.lines ++ ([], none) :: allLines (next :: rest)

theorem IsReadable.isLine {part : Section} (isReadable : part.IsReadable) :
    ∀ line ∈ part.lines, IsLine line.1 line.2 := by
  intro line member
  rcases List.mem_cons.mp member with rfl | member
  · exact isLine_header isReadable.isBare
  · obtain ⟨field, isField, rfl⟩ := List.mem_map.mp member
    obtain ⟨isBare, readsAs⟩ := isReadable.fields field isField
    exact isLine_entry isBare readsAs

theorem isLine_allLines {parts : List Section}
    (readable : ∀ part ∈ parts, part.IsReadable) :
    ∀ line ∈ allLines parts, IsLine line.1 line.2 := by
  match parts with
  | [] => simp [allLines]
  | [part] => exact (readable part List.mem_cons_self).isLine
  | part :: next :: rest =>
      intro line member
      rcases List.mem_append.mp member with here | later
      · exact (readable part List.mem_cons_self).isLine line here
      · rcases List.mem_cons.mp later with rfl | later
        · exact isLine_empty
        · have readableLater : ∀ other ∈ next :: rest, other.IsReadable :=
            fun other isOther =>
              readable other (List.mem_cons_of_mem part isOther)
          exact isLine_allLines readableLater line later

theorem toList_text (part : Section) :
    part.text.toList = textOf part.lines := by
  simp [text, lines, textOf, Settings.sectionText, List.flatMap_map]

theorem toList_intercalate_text (parts : List Section) :
    ("\n".intercalate (parts.map text)).toList = textOf (allLines parts) := by
  match parts with
  | [] => rfl
  | [part] => simp [allLines, toList_text]
  | part :: next :: rest =>
      have later := toList_intercalate_text (next :: rest)
      rw [List.map_cons] at later
      simp [allLines, toList_text, textOf_append, String.intercalate_cons_cons,
        later]
      rfl

theorem saidBy_lines (part : Section) :
    saidBy part.lines = part.statements := by
  simp [saidBy, lines, statements, List.flatMap_map, ← List.map_eq_flatMap]

theorem saidBy_allLines (parts : List Section) :
    saidBy (allLines parts) = parts.flatMap statements := by
  match parts with
  | [] => rfl
  | [part] => simp [allLines, saidBy_lines]
  | part :: next :: rest =>
      have later := saidBy_allLines (next :: rest)
      rw [allLines, saidBy_append, saidBy_lines, List.flatMap_cons, ← later]
      rfl

theorem head?_textOf_allLines {parts : List Section} {first : Char}
    (begins : first ∈ (textOf (allLines parts)).head?) : first = '[' := by
  match parts with
  | [] => cases begins
  | [part] =>
      cases begins
      rfl
  | part :: next :: rest =>
      cases begins
      rfl

end Section

/-! ## Documents -/

namespace Document

theorem add_header {entries : Entries} {name : String}
    (isNew : name ∉ entries.map Prod.fst) (current : List String) :
    add ⟨entries, current⟩ (.table [name]) =
      some ⟨entries ++ [(name, .table .header [])], [name]⟩ := by
  simp [add, change, Entries.alter, Entries.openTable,
    lookup_of_not_mem isNew, replaced_of_not_mem isNew]

theorem add_entry {entries inner : Entries} {name key : String}
    (isNew : name ∉ entries.map Prod.fst)
    (isNewKey : key ∉ inner.map Prod.fst) (value : ValueTree) :
    add ⟨entries ++ [(name, .table .header inner)], [name]⟩
        (.entry [key] value) =
      some ⟨entries ++
          [(name, .table .header (inner ++ [(key, .value value)]))],
        [name]⟩ := by
  have here : (entries ++ [(name, Node.table .header inner)]).lookup name =
      some (.table .header inner) := by
    rw [List.lookup_append, lookup_of_not_mem isNew]
    simp
  simp [add, change, Entries.alter, here, Entries.insertAt, Entries.insertNew,
    lookup_of_not_mem isNewKey, replaced_of_not_mem isNewKey, replaced_last isNew]

theorem foldlM_add_fields {entries inner : Entries} {name : String}
    {fields : List Field} (isNew : name ∉ entries.map Prod.fst)
    (distinct : (inner.map Prod.fst ++ fields.map Field.name).Nodup) :
    (fields.map fun field =>
          Statement.entry [field.name] field.meant).foldlM add
        ⟨entries ++ [(name, .table .header inner)], [name]⟩ =
      some ⟨entries ++ [(name, .table .header
          (inner ++ fields.map fun field => (field.name, .value field.meant)))],
        [name]⟩ := by
  induction fields generalizing inner with
  | nil => simp
  | cons field fields ih =>
      have isNewKey : field.name ∉ inner.map Prod.fst := by
        intro member
        exact (List.nodup_append.mp distinct).2.2 field.name member field.name
          (by simp) rfl
      have later := @ih (inner ++ [(field.name, .value field.meant)])
        (by simpa using distinct)
      simp only [List.map_cons, List.foldlM_cons, add_entry isNew isNewKey,
        Option.bind_eq_bind, Option.bind_some, later]
      simp

/-- The node of a section in a document. -/
def nodeOf (part : Section) : String × Node :=
  (part.name, .table .header
    (part.fields.map fun field => (field.name, .value field.meant)))

theorem foldlM_add_sections {before parts : List Section}
    {current : List String}
    (distinct : ((before ++ parts).map Section.name).Nodup)
    (distinctFields : ∀ part ∈ parts, (part.fields.map Field.name).Nodup) :
    ∃ last, (parts.flatMap Section.statements).foldlM add
        ⟨before.map nodeOf, current⟩ =
      some ⟨(before ++ parts).map nodeOf, last⟩ := by
  induction parts generalizing before current with
  | nil => exact ⟨current, by simp⟩
  | cons part parts ih =>
      have isNew : part.name ∉ (before.map nodeOf).map Prod.fst := by
        rw [List.map_append] at distinct
        intro member
        rw [List.map_map] at member
        exact (List.nodup_append.mp distinct).2.2 part.name member part.name
          (by simp) rfl
      obtain ⟨last, later⟩ := @ih (before ++ [part]) [part.name]
        (by simpa using distinct) fun other member =>
          distinctFields other (List.mem_cons_of_mem part member)
      have here := @foldlM_add_fields (before.map nodeOf) [] part.name
        part.fields isNew
        (by simpa using distinctFields part List.mem_cons_self)
      refine ⟨last, ?_⟩
      rw [List.flatMap_cons, List.foldlM_append, Section.statements,
        List.foldlM_cons, add_header isNew]
      simp only [Option.bind_eq_bind, Option.bind_some, here, List.nil_append]
      simpa [nodeOf] using later

theorem entriesToTrees_map_value (fields : List Field) :
    entriesToTrees (fields.map fun field => (field.name, .value field.meant)) =
      fields.map fun field => (field.name, field.meant) := by
  induction fields with
  | nil => rfl
  | cons field fields ih => simp [entriesToTrees, Node.toTree, ih]

theorem entriesToTrees_map_nodeOf (parts : List Section) :
    entriesToTrees (parts.map nodeOf) = parts.map Section.table := by
  induction parts with
  | nil => rfl
  | cons part parts ih =>
      simp [nodeOf, entriesToTrees, Node.toTree, entriesToTrees_map_value,
        Section.table, ← ih]

theorem ofStatements?_sections {parts : List Section}
    (distinct : (parts.map Section.name).Nodup)
    (distinctFields : ∀ part ∈ parts, (part.fields.map Field.name).Nodup) :
    ofStatements? (parts.flatMap Section.statements) =
      some (parts.map Section.table) := by
  obtain ⟨last, added⟩ :=
    @foldlM_add_sections [] parts [] distinct distinctFields
  rw [List.map_nil] at added
  simp [ofStatements?, empty, added, entriesToTrees_map_nodeOf]

end Document

/-- A document of sections is read as their tables. -/
theorem read?_sections {parts : List Section}
    (readable : ∀ part ∈ parts, part.IsReadable)
    (distinct : (parts.map Section.name).Nodup) :
    read? ("\n".intercalate (parts.map Section.text)) =
      some (parts.map Section.table) := by
  have said := statements_lines (Section.isLine_allLines readable)
    (Nat.lt_succ_of_le (length_lines_le (Section.allLines parts)))
  rw [Section.saidBy_allLines] at said
  have together := Document.ofStatements?_sections distinct
    fun part member => (readable part member).distinct
  have begins {first : Char} := @Section.head?_textOf_allLines parts first
  rw [read?, Section.toList_intercalate_text]
  generalize textOf (Section.allLines parts) = chars at said begins
  have noMark : Reader.skips '\ufeff' chars = some (false, chars) := by
    cases chars with
    | nil => rfl
    | cons first chars =>
        have isBracket : first = '[' := begins rfl
        simp [isBracket]
  simp [Reader.readAll, noMark, said, together]

end Toml

end ScreenFlow

import Vigile.OrderedMap
import Vigile.Python

/-! Tables that plugins declare in their manifests, created and dropped under names that
start with the plugin's id. SQLite compares table names without case. -/
namespace Vigile.DBAuto

open Python

/-- What `$` of a regular expression leaves before it: the text without one final newline. -/
def word (text : List Char) : List Char := if text.getLast? = some '\n' then text.dropLast else text

def wordChar (c : Char) : Bool := c.isAlphanum || c = '_'

/-- `^[a-zA-Z_][a-zA-Z0-9_]*$` -/
def isIdentifier (name : String) : Bool :=
  match word name.toList with
  | [] => false
  | c :: rest => (c.isAlpha || c = '_') && rest.all wordChar

def idChar (c : Char) : Bool := c.isLower || c.isDigit || c = '_'

/-- The pattern of a manifest's id, `^[a-z][a-z0-9_]+$`, whose end is the end of the text. -/
def isManifestId (id : String) : Bool :=
  match id.toList with
  | [] | [_] => false
  | c :: rest => c.isLower && rest.all idChar

structure Column where
  name : String
  type : String
  pk : Bool
  notNull : Bool
  default : Json

/-- The `database` field of a manifest. -/
abbrev Schema := List (String × List Column)

inductive Statement where
  | createTable (table : String) (definitions : List String)
  | dropTable (table : String)

def Statement.table : Statement → String
  | .createTable table _ | .dropTable table => table

def columnTypes : List (String × String) :=
  [("TEXT","TEXT"),("INTEGER","INTEGER"),("REAL","REAL"),("BLOB","BLOB"),("NUMERIC","NUMERIC"),("BOOLEAN","INTEGER"),
   ("FLOAT","REAL"),("INT","INTEGER"),("VARCHAR","TEXT"),("TIMESTAMP","TEXT")]

section
-- `str.upper`, `repr` of a name and `str` of a default
variable (upper repr : String → String) (str : Json → String)

/-- Single quotes are doubled. -/
def escapeLiteral (value : String) : String :=
  String.ofList (value.toList.flatMap fun c => if c.toNat = 39 then [c,c] else [c])

def validateIdentifier (name : String) : Except PyError Unit :=
  if isIdentifier name then .ok () else .error (.valueError ("Unsafe SQL identifier: " ++ repr name))

def tableName (plugin table : String) : Except PyError String := do
  validateIdentifier repr plugin
  validateIdentifier repr table
  pure (plugin ++ "_" ++ table)

def columnDefault : Json → String
  | .null => ""
  | .str text =>
    if upper text ∈ ["CURRENT_TIMESTAMP","CURRENT_DATE","CURRENT_TIME"] then " DEFAULT " ++ text
    else " DEFAULT '" ++ escapeLiteral text ++ "'"
  | .bool value => " DEFAULT " ++ if value then "1" else "0"
  | value => " DEFAULT " ++ str value

def columnDef (column : Column) : Except PyError String := do
  validateIdentifier repr column.name
  let sqlType := (columnTypes.lookup (upper column.type)).getD "TEXT"
  validateIdentifier repr sqlType
  pure ("    " ++ column.name ++ " " ++ sqlType ++ (if column.notNull then " NOT NULL" else "") ++
    columnDefault upper str column.default)

def primaryKey (columns : List Column) : List String :=
  match columns.filter (·.pk) with
  | [] => []
  | keys => ["    PRIMARY KEY (" ++ ", ".intercalate (keys.map (·.name)) ++ ")"]

def buildCreateSql (plugin table : String) (columns : List Column) : Except PyError Statement := do
  let fullName ← tableName repr plugin table
  let definitions ← columns.mapM (columnDef upper repr str)
  pure (.createTable fullName (definitions ++ primaryKey columns))

def buildDropSql (plugin table : String) : Except PyError Statement := do
  let fullName ← tableName repr plugin table
  pure (.dropTable fullName)

end

/-- A name as SQLite looks it up. -/
def physical (table : String) : List Char := (word table.toList).map Char.toLower

structure Database where
  tables : OrderedMap (List Char) (List String)
  issued : List Statement

/-- A table that exists is left as it is, one that does not is not dropped. -/
def change (tables : OrderedMap (List Char) (List String)) : Statement → OrderedMap (List Char) (List String)
  | .createTable table definitions =>
    if (tables.get? (physical table)).isSome then tables else tables.set (physical table) definitions
  | .dropTable table => tables.erase (physical table)

def execute (db : Database) (fails : Bool) (statement : Statement) : Database :=
  ⟨if fails then db.tables else change db.tables statement,db.issued ++ [statement]⟩

/-- One statement for each declared table: one that fails is reported and the next one
follows, a name that is not safe raises. -/
def forTables {α : Type} (build : String → α → Except PyError Statement) (fails : String → Bool) :
    List (String × α) → Database → Database × Except PyError (List (String × Bool))
  | [],db => (db,.ok [])
  | (table,declared) :: rest,db =>
    match build table declared with
    | .error error => (db,.error error)
    | .ok statement =>
      let (db,results) := forTables build fails rest (execute db (fails table) statement)
      (db,results.map ((table,!fails table) :: ·))

def createTables (upper repr : String → String) (str : Json → String)
    (fails : String → Bool) (plugin : String) (schema : Schema) (db : Database) :
    Database × Except PyError (List (String × Bool)) :=
  forTables (buildCreateSql upper repr str plugin) fails schema db

def dropTables (repr : String → String) (fails : String → Bool) (plugin : String) (schema : Schema) (db : Database) :
    Database × Except PyError (List (String × Bool)) :=
  forTables (fun table _ => buildDropSql repr plugin table) fails schema db

def coreTables : List String :=
  ["nodes","join_tokens","worker_tokens","users","refresh_tokens","audit_log","metrics_snapshots","action_proposals",
   "chat_sessions","plugins","alerts","investigations","outbox","plex_sessions","plex_watch_history","plex_libraries",
   "plex_media_cache","plex_events","plugin_capability_declarations","plugin_grants","policies","disk_scans_cache"]

theorem word_append (first second : List Char) (nonempty : second ≠ []) : word (first ++ second) = first ++ word second := by
  unfold word
  rw [List.getLast?_append_of_ne_nil _ nonempty]
  split
  · exact List.dropLast_append_of_ne_nil nonempty
  · rfl

theorem word_cons (c : Char) (text : List Char) (plain : c ≠ '\n') : word (c :: text) = c :: word text := by
  cases text with
  | nil => simp [word,plain]
  | cons d rest => exact word_append [c] (d :: rest) (by simp)

/-- What a table name stands for behind the prefix. -/
def folded (table : String) : List Char := (word table.toList).map Char.toLower

theorem isLower_eq (c : Char) : c.isLower = (decide (c.val ≥ 'a'.val) && decide (c.val ≤ 'z'.val)) := rfl

theorem isAlpha_eq (c : Char) : c.isAlpha = (c.isUpper || c.isLower) := rfl

variable {c : Char} {plugin : String}

theorem toLower_idChar (lower : idChar c = true) : c.toLower = c := by
  unfold Char.toLower
  rw [dif_neg]
  rintro ⟨above,below⟩
  simp only [idChar,isLower_eq,Char.isDigit,Bool.or_eq_true,Bool.and_eq_true,decide_eq_true_eq,ge_iff_le,
    UInt32.le_iff_toNat_le] at lower above below
  rcases lower with (lower | digit) | rfl
  · have upper : 'Z'.val.toNat = 90 := rfl
    have small : 'a'.val.toNat = 97 := rfl
    omega
  · have upper : 'A'.val.toNat = 65 := rfl
    have nine : '9'.val.toNat = 57 := rfl
    omega
  · contradiction

theorem idChar_of_isLower (lower : c.isLower = true) : idChar c = true := by simp [idChar,lower]

theorem wordChar_of_idChar (lower : idChar c = true) : wordChar c = true := by
  simp only [idChar,Bool.or_eq_true,decide_eq_true_eq] at lower
  rcases lower with (lower | digit) | rfl <;> simp_all [wordChar,Char.isAlphanum,isAlpha_eq]

/-- A manifest's id has only characters of one kind, and begins with a letter. -/
theorem manifestId_chars (valid : isManifestId plugin = true) :
    ∃ c rest, plugin.toList = c :: rest ∧ c.isLower = true ∧ ∀ d ∈ c :: rest, idChar d = true := by
  unfold isManifestId at valid
  split at valid
  · contradiction
  · contradiction
  · rename_i c rest _ text
    obtain ⟨first,others⟩ := (Bool.and_eq_true _ _).mp valid
    refine ⟨c,rest,text,first,fun d member => ?_⟩
    rcases List.mem_cons.mp member with rfl | member
    · exact idChar_of_isLower first
    · exact List.all_eq_true.mp others d member

theorem word_of_idChars {text : List Char} (chars : ∀ d ∈ text, idChar d = true) : word text = text := by
  unfold word
  rw [if_neg]
  intro last
  have newline := chars '\n' (List.mem_of_getLast? last)
  contradiction

theorem isIdentifier_of_manifestId (valid : isManifestId plugin = true) : isIdentifier plugin = true := by
  obtain ⟨c,rest,text,first,chars⟩ := manifestId_chars valid
  unfold isIdentifier
  rw [text,word_of_idChars chars]
  simp only [Bool.and_eq_true,Bool.or_eq_true]
  exact ⟨.inl (by simp [isAlpha_eq,first]),List.all_eq_true.mpr fun d member =>
    wordChar_of_idChar (chars d (List.mem_cons_of_mem _ member))⟩

/-- A manifest's id is the prefix as it stands. -/
theorem physical_tableName (valid : isManifestId plugin = true) (table : String) :
    physical (plugin ++ "_" ++ table) = plugin.toList ++ '_' :: folded table := by
  obtain ⟨c,rest,text,_,chars⟩ := manifestId_chars valid
  have kept : plugin.toList.map Char.toLower = plugin.toList := by
    rw [text]
    exact (List.map_congr_left fun d member => toLower_idChar (chars d member)).trans (List.map_id _)
  have joined : (plugin ++ "_" ++ table).toList = plugin.toList ++ '_' :: table.toList := by simp
  unfold physical folded
  rw [joined,word_append _ _ (by simp),word_cons _ _ (by decide),List.map_append,kept]
  rfl

/-- Two prefixed names are equal in three ways only. -/
theorem prefixed_eq_iff {p q a b : List Char} : p ++ '_' :: a = q ++ '_' :: b ↔
    p = q ∧ a = b ∨ (∃ r, q = p ++ '_' :: r ∧ a = r ++ '_' :: b) ∨ (∃ r, p = q ++ '_' :: r ∧ b = r ++ '_' :: a) := by
  rw [List.append_eq_append_iff]
  constructor
  · rintro (⟨rest,rfl,same⟩ | ⟨rest,rfl,same⟩)
    · cases rest with
      | nil => exact .inl ⟨by simp,(List.cons.inj same).2⟩
      | cons c r =>
        obtain ⟨rfl,rfl⟩ := List.cons.inj same
        exact .inr (.inl ⟨r,rfl,rfl⟩)
    · cases rest with
      | nil => exact .inl ⟨by simp,(List.cons.inj same).2.symm⟩
      | cons c r =>
        obtain ⟨rfl,rfl⟩ := List.cons.inj same
        exact .inr (.inr ⟨r,rfl,rfl⟩)
  · rintro (⟨rfl,rfl⟩ | ⟨r,rfl,rfl⟩ | ⟨r,rfl,rfl⟩)
    · exact .inl ⟨[],by simp⟩
    · exact .inl ⟨'_' :: r,rfl,rfl⟩
    · exact .inr ⟨'_' :: r,rfl,rfl⟩

/-- The declared tables up to the first one with an unsafe name. -/
def safeTables {α : Type} (schema : List (String × α)) : List String := (schema.map Prod.fst).takeWhile isIdentifier

def names (issued : List Statement) : List (List Char) := issued.map fun statement => physical statement.table

theorem buildDropSql_ok {repr : String → String} {table : String} (valid : isIdentifier plugin = true) :
    buildDropSql repr plugin table = if isIdentifier table then .ok (.dropTable (plugin ++ "_" ++ table))
      else .error (.valueError ("Unsafe SQL identifier: " ++ repr table)) := by
  unfold buildDropSql tableName validateIdentifier
  cases isIdentifier table <;> simp [valid] <;> rfl

theorem buildCreateSql_table {upper repr : String → String} {str : Json → String} {table : String}
    {columns : List Column} {statement : Statement}
    (built : buildCreateSql upper repr str plugin table columns = .ok statement) :
    isIdentifier table = true ∧ statement.table = plugin ++ "_" ++ table := by
  unfold buildCreateSql tableName validateIdentifier at built
  cases known : isIdentifier plugin with
  | false => simp [known,bind,Except.bind] at built
  | true =>
    cases safe : isIdentifier table with
    | false => simp [known,safe,bind,Except.bind] at built
    | true =>
      cases defined : columns.mapM (columnDef upper repr str) with
      | error error => simp [known,safe,defined,bind,Except.bind,pure,Except.pure] at built
      | ok definitions =>
        simp only [known,safe,defined,bind,Except.bind,pure,Except.pure,if_true,Except.ok.injEq] at built
        subst built
        exact ⟨rfl,rfl⟩

/-- The statements of a run over a schema are those of a prefix of its safe tables. -/
theorem forTables_issued {α : Type} {build : String → α → Except PyError Statement}
    (named : ∀ table declared statement, build table declared = .ok statement →
      isIdentifier table = true ∧ statement.table = plugin ++ "_" ++ table)
    (fails : String → Bool) (schema : List (String × α)) (db : Database) :
    ∃ tables, tables <+: safeTables schema ∧
      (forTables build fails schema db).1.issued.map Statement.table =
        db.issued.map Statement.table ++ tables.map fun table => plugin ++ "_" ++ table := by
  induction schema generalizing db with
  | nil => exact ⟨[],List.nil_prefix,by simp [forTables]⟩
  | cons entry rest ih =>
    obtain ⟨table,declared⟩ := entry
    unfold forTables
    cases built : build table declared with
    | error error => exact ⟨[],List.nil_prefix,by simp⟩
    | ok statement =>
      obtain ⟨safe,name⟩ := named table declared statement built
      obtain ⟨tables,initial,issued⟩ := ih (execute db (fails table) statement)
      refine ⟨table :: tables,?_,?_⟩
      · simpa [safeTables,safe] using initial
      · rw [issued]
        simp [execute,name]

/-- Nothing but the tables of the schema changes. -/
theorem forTables_frame {α : Type} {build : String → α → Except PyError Statement}
    (named : ∀ table declared statement, build table declared = .ok statement →
      isIdentifier table = true ∧ statement.table = plugin ++ "_" ++ table)
    (fails : String → Bool) (schema : List (String × α)) (db : Database) (name : List Char)
    (other : ∀ table ∈ safeTables schema, physical (plugin ++ "_" ++ table) ≠ name) :
    (forTables build fails schema db).1.tables.get? name = db.tables.get? name := by
  induction schema generalizing db with
  | nil => rfl
  | cons entry rest ih =>
    obtain ⟨table,declared⟩ := entry
    unfold forTables
    cases built : build table declared with
    | error error => rfl
    | ok statement =>
      obtain ⟨safe,same⟩ := named table declared statement built
      have away : name ≠ physical statement.table := by
        rw [same]
        exact Ne.symm (other table (by simp [safeTables,safe]))
      have later : ∀ next ∈ safeTables rest, physical (plugin ++ "_" ++ next) ≠ name :=
        fun next member => other next (by simpa [safeTables,safe] using .inr member)
      refine (ih (execute db (fails table) statement) later).trans ?_
      unfold execute change
      cases statement with
      | createTable full definitions =>
        simp only
        split
        · rfl
        · split
          · rfl
          · exact OrderedMap.get?_set_of_ne away
      | dropTable full =>
        simp only
        split
        · rfl
        · exact OrderedMap.get?_erase_of_ne away

section
variable (upper repr : String → String) (str : Json → String)

/-- The tables that installing or uninstalling a plugin reaches. -/
def touched (plugin : String) (schema : Schema) : List (List Char) :=
  names (createTables upper repr str (fun _ => false) plugin schema ⟨.empty,[]⟩).1.issued ++
    names (dropTables repr (fun _ => false) plugin schema ⟨.empty,[]⟩).1.issued

/-- Neither plugin reaches a table of the other, or of the core. -/
def Isolated (first second : List (List Char)) : Prop :=
  (∀ name ∈ first, name ∉ second ∧ name ∉ coreTables.map String.toList) ∧
    ∀ name ∈ second, name ∉ coreTables.map String.toList

/-- The second plugin's id goes on where the first one's ends, and the first one's table
begins with what it goes on with. -/
def Meets (plugin table other otherTable : String) : Prop :=
  ∃ rest, other.toList = plugin.toList ++ '_' :: rest ∧ folded table = rest ++ '_' :: folded otherTable

def SplitsCore (plugin table : String) : Prop :=
  ∃ core ∈ coreTables, core.toList = plugin.toList ++ '_' :: folded table

variable {plugin : String}

theorem dropTables_issued (valid : isIdentifier plugin = true) (fails : String → Bool) (schema : Schema)
    (db : Database) : (dropTables repr fails plugin schema db).1.issued =
      db.issued ++ (safeTables schema).map fun table => .dropTable (plugin ++ "_" ++ table) := by
  unfold dropTables
  induction schema generalizing db with
  | nil => simp [forTables,safeTables]
  | cons entry rest ih =>
    obtain ⟨table,columns⟩ := entry
    unfold forTables
    rw [buildDropSql_ok valid]
    cases safe : isIdentifier table with
    | false => simp [safeTables,safe]
    | true =>
      simp only [if_true]
      rw [ih]
      simp [safeTables,safe,execute]

/-- Creating reaches no table that dropping does not. -/
theorem mem_touched (valid : isManifestId plugin = true) (schema : Schema) (name : List Char) :
    name ∈ touched upper repr str plugin schema ↔
      ∃ table ∈ safeTables schema, name = plugin.toList ++ '_' :: folded table := by
  have dropped := dropTables_issued repr (isIdentifier_of_manifestId valid) (fun _ => false) schema ⟨.empty,[]⟩
  have named : ∀ table columns statement, buildCreateSql upper repr str plugin table columns = .ok statement →
      isIdentifier table = true ∧ statement.table = plugin ++ "_" ++ table :=
    fun _ _ _ built => buildCreateSql_table built
  obtain ⟨tables,initial,created⟩ := forTables_issued named (fun _ => false) schema ⟨.empty,[]⟩
  have names_created : names (createTables upper repr str (fun _ => false) plugin schema ⟨.empty,[]⟩).1.issued =
      tables.map fun table => physical (plugin ++ "_" ++ table) := by
    have mapped := congrArg (List.map physical) created
    simpa [names,createTables,Function.comp_def] using mapped
  have names_dropped : names (dropTables repr (fun _ => false) plugin schema ⟨.empty,[]⟩).1.issued =
      (safeTables schema).map fun table => physical (plugin ++ "_" ++ table) := by
    rw [dropped]
    simp [names,Statement.table]
  unfold touched
  rw [names_created,names_dropped,List.mem_append,List.mem_map,List.mem_map]
  simp only [physical_tableName valid]
  constructor
  · rintro (⟨table,member,rfl⟩ | ⟨table,member,rfl⟩)
    · exact ⟨table,initial.subset member,rfl⟩
    · exact ⟨table,member,rfl⟩
  · rintro ⟨table,member,rfl⟩
    exact .inr ⟨table,member,rfl⟩

/-- Installing and uninstalling change no table beside those they reach. -/
theorem untouched_kept (valid : isManifestId plugin = true) (schema : Schema) (fails : String → Bool)
    (db : Database) (name : List Char) (other : name ∉ touched upper repr str plugin schema) :
    (createTables upper repr str fails plugin schema db).1.tables.get? name = db.tables.get? name ∧
      (dropTables repr fails plugin schema db).1.tables.get? name = db.tables.get? name := by
  have away : ∀ table ∈ safeTables schema, physical (plugin ++ "_" ++ table) ≠ name := by
    rintro table member rfl
    exact other ((mem_touched upper repr str valid schema _).mpr ⟨table,member,physical_tableName valid table⟩)
  refine ⟨forTables_frame (fun _ _ _ built => buildCreateSql_table built) fails schema db name away,
    forTables_frame (fun table _ statement built => ?_) fails schema db name away⟩
  rw [buildDropSql_ok (isIdentifier_of_manifestId valid)] at built
  split at built
  · rename_i safe
    obtain rfl := Except.ok.inj built
    exact ⟨safe,rfl⟩
  · contradiction

theorem mem_core {table : String} :
    plugin.toList ++ '_' :: folded table ∈ coreTables.map String.toList ↔ SplitsCore plugin table := List.mem_map

end

/-! Two plugins of the repository's kind, and one that reaches the audit log -/

def quoted (text : String) : String := "'" ++ text ++ "'"

def dockerSchema : Schema := [("images",[⟨"id","TEXT",true,true,.null⟩])]

def metricsSchema : Schema := [("history",[⟨"value","FLOAT",false,false,.null⟩])]

theorem untouched_kept_users :
    let made := createTables String.toUpper quoted (fun _ => "") (fun _ => false) "audit" [("log",[])]
      ⟨OrderedMap.empty.set "users".toList ["id"],[]⟩
    made.1.tables.get? "users".toList = some ["id"] :=
  (untouched_kept String.toUpper quoted (fun _ => "") (by decide) [("log",[])] (fun _ => false) _ _ (by decide)).1.trans
    (by decide)

end Vigile.DBAuto

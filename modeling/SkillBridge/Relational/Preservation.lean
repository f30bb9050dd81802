import SkillBridge.Relational.Statements

set_option autoImplicit false

/-! When a statement is not refused: what it asks of the rows that are there. -/

namespace SkillBridge.Relational

variable {N : Type} [DecidableEq N] {schema schema' : Schema N} {rows rows' : Rows N}

def Schema.Free (schema : Schema N) (name n : N) : Prop :=
  ∀ table ∈ schema.tables,
    (table.name = name → (∀ columns ∈ table.uniques, n ∉ columns) ∧ ∀ key ∈ table.foreignKeys, n ∉ key.columns) ∧
    ∀ key ∈ table.foreignKeys, key.referencedTable = name → n ∉ key.referencedColumns

instance (schema : Schema N) (name n : N) : Decidable (schema.Free name n) :=
  inferInstanceAs (Decidable (∀ table ∈ schema.tables,
    (table.name = name → (∀ columns ∈ table.uniques, n ∉ columns) ∧ ∀ key ∈ table.foreignKeys, n ∉ key.columns) ∧
    ∀ key ∈ table.foreignKeys, key.referencedTable = name → n ∉ key.referencedColumns))

theorem Schema.Coherent.table_eq (h : schema.Coherent) {table other : Table N} (htable : table ∈ schema.tables)
    (hother : other ∈ schema.tables) (hname : table.name = other.name) : table = other :=
  List.inj_on_of_nodup_map h.names htable hother hname

theorem Schema.Coherent.free (h : schema.Coherent) {table : Table N} {n : N} (htable : table ∈ schema.tables)
    (hn : n ∉ table.columnNames) : schema.Free table.name n := by
  refine fun other hother => ⟨fun hname => ?_, fun key hkey href hmem => ?_⟩
  · obtain rfl := h.table_eq hother htable hname
    have hcoherent := h.tables other hother
    exact ⟨fun columns hcolumns hmem => hn (hcoherent.uniques columns hcolumns n hmem),
      fun key hkey hmem => hn ((hcoherent.references key hkey).1 n hmem)⟩
  · obtain ⟨-, referenced, hreferenced, hname, hcolumns⟩ := (h.tables other hother).references key hkey
    obtain rfl := h.table_eq hreferenced htable (hname.trans href)
    exact hn (hcolumns n hmem)

/-- What keeps the constraints: rows change only in columns that no key reads, and a constraint that is new holds. -/
theorem Admissible.evolve (h : Admissible schema rows) (hcoherent : schema'.Coherent) {P : N → N → Prop}
    {f : N → Row N → Row N} (hfree : ∀ name n, P name n → schema.Free name n)
    (hf : ∀ name r n, ¬ P name n → f name r n = r n)
    (hrows : ∀ table ∈ schema.tables, ∀ table' ∈ schema'.tables, table'.name = table.name →
      rows' table.name = (rows table.name).map (f table.name))
    (htables : ∀ table' ∈ schema'.tables, rows' table'.name = [] ∨ ∃ table ∈ schema.tables,
      table.name = table'.name ∧
      (∀ column' ∈ table'.columns, (∃ column ∈ table.columns, column.name = column'.name ∧
          ¬ P table.name column.name ∧
          ∀ v, column.admits schema.types v = true → column'.admits schema'.types v = true) ∨
        ∀ r ∈ rows' table'.name, column'.admits schema'.types (r column'.name) = true) ∧
      (∀ columns ∈ table'.uniques, columns ∈ table.uniques ∨ (rows' table'.name).Pairwise (Apart columns)) ∧
      ∀ key ∈ table'.foreignKeys, key ∈ table.foreignKeys ∨ ∀ r ∈ rows' table'.name, key.Holds rows' r) :
    Admissible schema' rows' := by
  refine ⟨hcoherent, fun table' htable' => ?_⟩
  rcases htables table' htable' with hnil | ⟨table, htable, hname, hcolumns, huniques, hkeys⟩
  · constructor <;> simp [hnil]
  have hfits := h.fits table htable
  have heq : rows' table'.name = (rows table.name).map (f table.name) := by
    rw [← hname]
    exact hrows table htable table' htable' hname.symm
  constructor
  · intro r hr column' hcolumn'
    rcases hcolumns column' hcolumn' with ⟨column, hcolumn, hcname, hunchanged, hadmits⟩ | hadmits
    · rw [heq] at hr
      obtain ⟨s, hs, rfl⟩ := List.mem_map.mp hr
      rw [← hcname, hf _ _ _ hunchanged]
      exact hadmits _ (hfits.typed s hs column hcolumn)
    · exact hadmits r hr
  · intro columns hunique
    rcases huniques columns hunique with hold | hnew
    · rw [heq, List.pairwise_map]
      refine (hfits.apart columns hold).imp fun {r s} hapart => ?_
      obtain ⟨n, hn, hrs⟩ := hapart
      have hunchanged : ¬ P table.name n := fun hchanged =>
        ((hfree _ _ hchanged table htable).1 rfl).1 columns hold hn
      exact ⟨n, hn, by rwa [hf _ _ _ hunchanged, hf _ _ _ hunchanged]⟩
    · exact hnew
  · intro key hkey r hr
    rcases hkeys key hkey with hold | hnew
    · rw [heq] at hr
      obtain ⟨s, hs, rfl⟩ := List.mem_map.mp hr
      have hown : ∀ n ∈ key.columns, f table.name s n = s n := fun n hn => hf _ _ _ fun hchanged =>
        ((hfree _ _ hchanged table htable).1 rfl).2 key hold hn
      rcases hfits.holds key hold s hs with ⟨n, hn, hnull⟩ | ⟨u, hu, hmatch⟩
      · exact .inl ⟨n, hn, by rw [hown n hn, hnull]⟩
      · obtain ⟨-, other, hother, honame, -⟩ := (h.coherent.tables table htable).references key hold
        obtain ⟨-, other', hother', honame', -⟩ := (hcoherent.tables table' htable').references key hkey
        refine .inr ⟨f key.referencedTable u, ?_, ?_⟩
        · rw [← honame, hrows other hother other' hother' (honame'.trans honame.symm)]
          rw [honame]
          exact List.mem_map_of_mem hu
        · rw [List.map_congr_left hown, hmatch]
          exact List.map_congr_left fun n hn => (hf _ _ _ fun hchanged =>
            (hfree _ _ hchanged table htable).2 key hold rfl hn).symm
    · exact hnew r hr

theorem Admissible.weaken (h : Admissible schema rows) (hcoherent : schema'.Coherent)
    (htables : ∀ table' ∈ schema'.tables, ∃ table ∈ schema.tables, table.name = table'.name ∧
      (∀ column ∈ table'.columns, column ∈ table.columns) ∧
      (∀ columns ∈ table'.uniques, columns ∈ table.uniques) ∧ ∀ key ∈ table'.foreignKeys, key ∈ table.foreignKeys)
    (htypes : ∀ table' ∈ schema'.tables, ∀ column ∈ table'.columns, ∀ v,
      column.admits schema.types v = true → column.admits schema'.types v = true) :
    Admissible schema' rows := by
  refine h.evolve hcoherent (P := fun _ _ => False) (f := fun _ => id) (fun _ _ hchanged => hchanged.elim)
    (fun _ _ _ _ => rfl) (fun table _ _ _ _ => (List.map_id _).symm) fun table' htable' => .inr ?_
  obtain ⟨table, htable, hname, hcolumns, huniques, hkeys⟩ := htables table' htable'
  exact ⟨table, htable, hname,
    fun column hcolumn => .inl ⟨column, hcolumns column hcolumn, rfl, id, htypes table' htable' column hcolumn⟩,
    fun columns hmem => .inl (huniques columns hmem), fun key hmem => .inl (hkeys key hmem)⟩

section Alter

variable {table table' : Table N}

theorem Schema.alterTable_eq_some {name : N} {f : Table N → Option (Table N)}
    (h : schema.alterTable name f = some schema') :
    ∃ table ∈ schema.tables, table.name = name ∧ ∃ table', f table = some table' ∧
      schema' = { schema with
        tables := schema.tables.map fun other => if other.name = name then table' else other } := by
  obtain ⟨table', htable', rfl⟩ := Option.map_eq_some_iff.mp h
  obtain ⟨table, htable, hf⟩ := Option.bind_eq_some_iff.mp htable'
  have hname : table.name = name := by simpa using List.find?_some htable
  exact ⟨table, List.mem_of_find?_eq_some htable, hname, table', hf, rfl⟩

theorem Admissible.alter (h : Admissible schema rows) (htable : table ∈ schema.tables)
    (hschema : schema' = { schema with
      tables := schema.tables.map fun other => if other.name = table.name then table' else other })
    (hcoherent : schema'.Coherent) (hname : table'.name = table.name) {P : N → Prop} {g : Row N → Row N}
    (hfree : ∀ n, P n → schema.Free table.name n) (hg : ∀ r n, ¬ P n → g r n = r n)
    (hcolumns : ∀ column' ∈ table'.columns, (∃ column ∈ table.columns, column.name = column'.name ∧
        ¬ P column.name ∧
        ∀ v, column.admits schema.types v = true → column'.admits schema.types v = true) ∨
      ∀ r ∈ rows table.name, column'.admits schema.types (g r column'.name) = true)
    (huniques : ∀ columns ∈ table'.uniques,
      columns ∈ table.uniques ∨ ((rows table.name).map g).Pairwise (Apart columns))
    (hkeys : ∀ key ∈ table'.foreignKeys, key ∈ table.foreignKeys ∨
      ∀ r ∈ (rows table.name).map g, key.Holds (Function.update rows table.name ((rows table.name).map g)) r) :
    Admissible schema' (Function.update rows table.name ((rows table.name).map g)) := by
  subst hschema
  refine h.evolve hcoherent (P := fun other n => other = table.name ∧ P n)
    (f := fun other => if other = table.name then g else id) (fun other n hchanged => ?_)
    (fun other r n hchanged => ?_) (fun other _ _ _ _ => ?_) fun other hother => .inr ?_
  · obtain ⟨rfl, hn⟩ := hchanged
    exact hfree n hn
  · split_ifs with heq
    · exact hg r n fun hn => hchanged ⟨heq, hn⟩
    · rfl
  · by_cases heq : other.name = table.name
    · rw [heq, Function.update_self, if_pos rfl]
    · rw [Function.update_of_ne heq, if_neg heq, List.map_id]
  · obtain ⟨old, hold, rfl⟩ := List.mem_map.mp hother
    by_cases heq : old.name = table.name
    · rw [if_pos heq]
      obtain rfl := h.coherent.table_eq hold htable heq
      rw [hname, Function.update_self]
      refine ⟨old, hold, rfl, fun column hcolumn => ?_, huniques, hkeys⟩
      rcases hcolumns column hcolumn with ⟨column', hcolumn', hcname, hunchanged, hadmits⟩ | hadmits
      · exact .inl ⟨column', hcolumn', hcname, fun hchanged => hunchanged hchanged.2, hadmits⟩
      · refine .inr fun r hr => ?_
        obtain ⟨s, hs, rfl⟩ := List.mem_map.mp hr
        exact hadmits s hs
    · rw [if_neg heq]
      exact ⟨old, hold, rfl,
        fun column hcolumn => .inl ⟨column, hcolumn, rfl, fun hchanged => heq hchanged.1, fun _ hv => hv⟩,
        fun columns hmem => .inl hmem, fun key hmem => .inl hmem⟩

theorem update_map_id (rows : Rows N) (name : N) : Function.update rows name ((rows name).map id) = rows := by
  rw [List.map_id, Function.update_eq_self]

omit [DecidableEq N] in
theorem Table.uniques_subset (hkeys : ∀ key ∈ table'.keys, key ∈ table.keys)
    (hindexes : ∀ index ∈ table'.indexes, index ∈ table.indexes) (columns : List N)
    (h : columns ∈ table'.uniques) : columns ∈ table.uniques := by
  rcases List.mem_append.mp h with h | h
  · obtain ⟨key, hkey, rfl⟩ := List.mem_map.mp h
    exact List.mem_append_left _ (List.mem_map_of_mem (hkeys key hkey))
  · obtain ⟨index, hindex, rfl⟩ := List.mem_map.mp h
    obtain ⟨hmem, hunique⟩ := List.mem_filter.mp hindex
    exact List.mem_append_right _ (List.mem_map_of_mem (List.mem_filter.mpr ⟨hindexes index hmem, hunique⟩))

theorem Table.alterColumn_eq_some {n : N} {f : Column N → Column N} (h : table.alterColumn n f = some table') :
    table' = { table with
      columns := table.columns.map fun column => if column.name = n then f column else column } := by
  unfold Table.alterColumn at h
  split_ifs at h
  cases h
  rfl

theorem Admissible.alterColumn {n : N} {f : Column N → Column N} (h : Admissible schema rows)
    (htable : table ∈ schema.tables) (halter : table.alterColumn n f = some table')
    (hschema : schema' = { schema with
      tables := schema.tables.map fun other => if other.name = table.name then table' else other })
    (hcoherent : schema'.Coherent) (hname : ∀ column, (f column).name = column.name)
    (hadmits : ∀ column ∈ table.columns, column.name = n → ∀ r ∈ rows table.name,
      column.admits schema.types (r n) = true → (f column).admits schema.types (r n) = true) :
    Admissible schema' rows := by
  obtain rfl := Table.alterColumn_eq_some halter
  rw [← update_map_id rows table.name]
  refine h.alter htable hschema hcoherent rfl (P := fun _ => False) (fun _ hn => hn.elim) (fun _ _ _ => rfl)
    (fun column' hcolumn' => ?_) (fun columns hmem => .inl hmem) fun key hkey => .inl hkey
  obtain ⟨column, hcolumn, rfl⟩ := List.mem_map.mp hcolumn'
  by_cases heq : column.name = n
  · rw [if_pos heq]
    refine .inr fun r hr => ?_
    rw [hname, heq]
    apply hadmits column hcolumn heq r hr
    rw [← heq]
    exact (h.fits table htable).typed r hr column hcolumn
  · rw [if_neg heq]
    exact .inl ⟨column, hcolumn, rfl, not_false, fun _ hv => hv⟩

/-- A change of the columns and the keys of a table that leaves its rows as they are. -/
theorem Admissible.alterKeys (h : Admissible schema rows) (htable : table ∈ schema.tables)
    (hschema : schema' = { schema with
      tables := schema.tables.map fun other => if other.name = table.name then table' else other })
    (hcoherent : schema'.Coherent) (hname : table'.name = table.name)
    (hcolumns : ∀ column ∈ table'.columns, column ∈ table.columns)
    (huniques : ∀ columns ∈ table'.uniques, columns ∈ table.uniques ∨ (rows table.name).Pairwise (Apart columns))
    (hkeys : ∀ key ∈ table'.foreignKeys, key ∈ table.foreignKeys ∨ ∀ r ∈ rows table.name, key.Holds rows r) :
    Admissible schema' rows := by
  rw [← update_map_id rows table.name]
  refine h.alter htable hschema hcoherent hname (P := fun _ => False) (fun _ hn => hn.elim) (fun _ _ _ => rfl)
    (fun column hcolumn => .inl ⟨column, hcolumns column hcolumn, rfl, not_false, fun _ hv => hv⟩)
    (fun columns hmem => ?_) fun key hkey => ?_
  · rw [List.map_id]
    exact huniques columns hmem
  · rw [update_map_id, List.map_id]
    exact hkeys key hkey

theorem Admissible.addColumn {column : Column N} {v : Value} (h : Admissible schema rows)
    (htable : table ∈ schema.tables) (hschema : schema' = { schema with
      tables := schema.tables.map fun other => if other.name = table.name then
        { table with columns := table.columns ++ [column] } else other })
    (hcoherent : schema'.Coherent) (hadmits : rows table.name = [] ∨ column.admits schema.types v = true) :
    Admissible schema' (Function.update rows table.name
      ((rows table.name).map fun r => Function.update r column.name v)) := by
  have hnew : column.name ∉ table.columnNames := by
    have hmem : { table with columns := table.columns ++ [column] } ∈ schema'.tables := by
      rw [hschema]
      exact List.mem_map.mpr ⟨table, htable, if_pos rfl⟩
    have hnodup := (hcoherent.tables _ hmem).columns
    simp only [Table.columnNames, List.map_append, List.map_cons, List.map_nil] at hnodup
    exact fun hold => (List.nodup_append.mp hnodup).2.2 _ hold _ (List.mem_singleton_self _) rfl
  refine h.alter htable hschema hcoherent rfl (P := fun n => n = column.name) (fun n hn => ?_)
    (fun r n hn => Function.update_of_ne hn _ _) (fun column' hcolumn' => ?_) (fun columns hmem => .inl hmem)
    fun key hkey => .inl hkey
  · subst hn
    exact h.coherent.free htable hnew
  · rcases List.mem_append.mp hcolumn' with hold | hlast
    · exact .inl ⟨column', hold, rfl, fun heq => hnew (heq ▸ List.mem_map_of_mem hold), fun _ hv => hv⟩
    · obtain rfl := List.mem_singleton.mp hlast
      refine .inr fun r hr => ?_
      rcases hadmits with hnil | hadmits
      · rw [hnil] at hr
        cases hr
      · rwa [Function.update_self]

end Alter

def Change.Safe (types : List (EnumType N)) (rows : Rows N) (name : N) : Change N → Prop
  | addColumn column => rows name = [] ∨ ∀ v, column.fill = some v → column.admits types v = true
  | setNotNull n => ∀ r ∈ rows name, r n ≠ .null
  | setType n type => ∀ r ∈ rows name, r n = .null ∨ type.admits types (r n) = true
  | addForeignKey key => ∀ r ∈ rows name, key.Holds rows r
  | _ => True

theorem Change.admissible {change : Change N} {name : N} (h : Admissible schema rows)
    (halter : schema.alterTable name change.alter = some schema') (hcoherent : schema'.Coherent)
    (hsafe : change.Safe schema.types rows name) :
    Admissible schema' (Function.update rows name ((rows name).map change.onRow)) := by
  obtain ⟨table, htable, rfl, table', hchange, hschema⟩ := Schema.alterTable_eq_some halter
  have hsame : Admissible schema' rows →
      Admissible schema' (Function.update rows table.name ((rows table.name).map id)) := by
    rw [update_map_id]
    exact id
  cases change with
  | addColumn column =>
    obtain ⟨v, hfill, rfl⟩ := Option.map_eq_some_iff.mp hchange
    simp only [onRow, hfill, Option.getD_some]
    exact h.addColumn htable hschema hcoherent (hsafe.imp_right fun hadmits => hadmits v hfill)
  | dropColumn n =>
    simp only [alter] at hchange
    split_ifs at hchange
    cases hchange
    refine hsame (h.alterKeys htable hschema hcoherent rfl (fun _ => List.mem_of_mem_filter)
      (fun columns hmem => .inl ?_) fun key hkey => .inl (List.mem_of_mem_filter hkey))
    exact Table.uniques_subset (fun _ => List.mem_of_mem_filter) (fun _ => List.mem_of_mem_filter) columns hmem
  | setNotNull n =>
    refine hsame (h.alterColumn htable hchange hschema hcoherent (fun _ => rfl) fun column _ _ r hr hv => ?_)
    simpa [Column.admits, hsafe r hr] using hv
  | dropNotNull n =>
    refine hsame (h.alterColumn htable hchange hschema hcoherent (fun _ => rfl) fun column _ _ r _ hv => ?_)
    unfold Column.admits at hv ⊢
    split_ifs at hv ⊢
    · rfl
    · exact hv
  | setDefault | dropDefault =>
    exact hsame (h.alterColumn htable hchange hschema hcoherent (fun _ => rfl) fun _ _ _ _ _ hv => hv)
  | setType n type =>
    refine hsame (h.alterColumn htable hchange hschema hcoherent (fun _ => rfl) fun column _ _ r hr hv => ?_)
    unfold Column.admits at hv ⊢
    rcases hsafe r hr with hnull | hadmits
    · rwa [if_pos hnull] at hv ⊢
    · split_ifs at hv ⊢
      · exact hv
      · exact hadmits
  | addForeignKey key =>
    cases hchange
    refine hsame (h.alterKeys htable hschema hcoherent rfl (fun _ h => h) (fun _ => .inl) fun other hother => ?_)
    rcases List.mem_append.mp hother with hold | hnew
    · exact .inl hold
    · obtain rfl := List.mem_singleton.mp hnew
      exact .inr hsafe
  | dropForeignKey n =>
    cases hchange
    exact hsame (h.alterKeys htable hschema hcoherent rfl (fun _ h => h) (fun _ => .inl)
      fun other hother => .inl (List.mem_of_mem_eraseP hother))
  | dropConstraint n ifExists =>
    simp only [alter] at hchange
    split_ifs at hchange
    cases hchange
    refine hsame (h.alterKeys htable hschema hcoherent rfl (fun _ h => h) (fun columns hmem => .inl ?_)
      fun key hkey => .inl (List.mem_of_mem_filter hkey))
    refine Table.uniques_subset ?_ (fun _ h => ?_) columns hmem
    · exact fun _ => List.mem_of_mem_filter
    · exact h

def Statement.Safe (schema : Schema N) (rows : Rows N) : Statement N → Prop
  | renameLabel type _ _ => ∀ table ∈ schema.tables, ∀ column ∈ table.columns,
      column.type = .enum type → schema.Free table.name column.name
  | alterTable name change => change.Safe schema.types rows name
  | createIndex name index _ => index.isUnique = true → (rows name).Pairwise (Apart index.columns)
  | update name set _ => ∀ a ∈ set, schema.Free name a.1 ∧ ∀ table ∈ schema.tables, table.name = name →
      ∀ column ∈ table.columns, column.name = a.1 → column.admits schema.types a.2 = true
  | _ => True

section Statements

variable {name type old new : N}

theorem admits_mono {types types' : List (EnumType N)} {column : Column N} {v : Value}
    (h : ∀ other ∈ types, column.type = .enum other.name → other ∈ types') (hv : column.admits types v = true) :
    column.admits types' v = true := by
  unfold Column.admits at hv ⊢
  split_ifs at hv ⊢ with hnull
  · exact hv
  · cases htype : column.type with
    | enum name =>
      rw [htype] at hv
      cases v with
      | text s =>
        obtain ⟨other, hother, hlabel⟩ := List.any_eq_true.mp hv
        obtain ⟨hname, -⟩ := (Bool.and_eq_true _ _).mp hlabel
        refine List.any_eq_true.mpr ⟨other, h other hother ?_, hlabel⟩
        rw [htype, of_decide_eq_true hname]
      | _ => cases hv
    | _ =>
      rw [htype] at hv
      cases v <;> exact hv

theorem assign_of_notMem {set : List (N × Value)} {n : N} (h : ∀ a ∈ set, a.1 ≠ n) (r : Row N) :
    assign r set n = r n := by
  induction set generalizing r with
  | nil => rfl
  | cons a set ih =>
    rw [assign, List.foldl_cons]
    refine (ih (fun b hb => h b (List.mem_cons_of_mem _ hb)) _).trans ?_
    exact Function.update_of_ne (h a List.mem_cons_self).symm _ _

theorem assign_eq {set : List (N × Value)} {n : N} (r : Row N) :
    assign r set n = r n ∨ ∃ a ∈ set, a.1 = n ∧ assign r set n = a.2 := by
  induction set generalizing r with
  | nil => exact .inl rfl
  | cons a set ih =>
    rcases ih (Function.update r a.1 a.2) with heq | ⟨b, hb, hn, heq⟩
    · by_cases hn : a.1 = n
      · subst hn
        exact .inr ⟨a, List.mem_cons_self, rfl, heq.trans (Function.update_self ..)⟩
      · exact .inl (heq.trans (Function.update_of_ne (Ne.symm hn) _ _))
    · exact .inr ⟨b, List.mem_cons_of_mem _ hb, hn, heq⟩

theorem createTable_admissible {table : Table N} (h : Admissible schema rows)
    (hcoherent : ({ schema with tables := schema.tables ++ [table] } : Schema N).Coherent) :
    Admissible { schema with tables := schema.tables ++ [table] } (Function.update rows table.name []) := by
  have hfresh : ∀ other ∈ schema.tables, other.name ≠ table.name := by
    have hnames := hcoherent.names
    simp only [Schema.tableNames, List.map_append, List.map_cons, List.map_nil] at hnames
    exact fun other hother =>
      (List.nodup_append.mp hnames).2.2 _ (List.mem_map_of_mem hother) _ (List.mem_singleton_self _)
  refine h.evolve hcoherent (P := fun _ _ => False) (f := fun _ => id) (fun _ _ hchanged => hchanged.elim)
    (fun _ _ _ _ => rfl) (fun other hother _ _ _ => ?_) fun other hother => ?_
  · rw [Function.update_of_ne (hfresh other hother), List.map_id]
  · rcases List.mem_append.mp hother with hold | hnew
    · exact .inr ⟨other, hold, rfl, fun column hcolumn => .inl ⟨column, hcolumn, rfl, not_false, fun _ hv => hv⟩,
        fun columns hmem => .inl hmem, fun key hmem => .inl hmem⟩
    · obtain rfl := List.mem_singleton.mp hnew
      exact .inl (Function.update_self ..)

theorem dropTable_admissible (h : Admissible schema rows) (name : N)
    (hcoherent : ({ schema with tables := schema.tables.filter fun table => table.name ≠ name } : Schema N).Coherent) :
    Admissible { schema with tables := schema.tables.filter fun table => table.name ≠ name }
      (Function.update rows name []) := by
  have hkept : ∀ table ∈ schema.tables.filter (fun table => table.name ≠ name),
      Function.update rows name [] table.name = rows table.name := fun table htable =>
    Function.update_of_ne (of_decide_eq_true (List.mem_filter.mp htable).2) _ _
  refine h.evolve hcoherent (P := fun _ _ => False) (f := fun _ => id) (fun _ _ hchanged => hchanged.elim)
    (fun _ _ _ _ => rfl) (fun table _ table' htable' heq => ?_) fun table htable => .inr ?_
  · rw [List.map_id, ← heq]
    exact hkept table' htable'
  · exact ⟨table, List.mem_of_mem_filter htable, rfl,
      fun column hcolumn => .inl ⟨column, hcolumn, rfl, not_false, fun _ hv => hv⟩, fun columns hmem => .inl hmem,
      fun key hmem => .inl hmem⟩

theorem createIndex_admissible {table : Table N} {index : Index N} (h : Admissible schema rows)
    (htable : table ∈ schema.tables) (hschema : schema' = { schema with
      tables := schema.tables.map fun other => if other.name = table.name then
        { table with indexes := table.indexes ++ [index] } else other })
    (hcoherent : schema'.Coherent)
    (hsafe : index.isUnique = true → (rows table.name).Pairwise (Apart index.columns)) : Admissible schema' rows := by
  refine h.alterKeys htable hschema hcoherent rfl (fun _ h => h) (fun columns hmem => ?_) fun _ => .inl
  simp only [Table.uniques, List.filter_append, List.map_append, List.mem_append] at hmem
  rcases hmem with hmem | hmem | hmem
  · exact .inl (List.mem_append_left _ hmem)
  · exact .inl (List.mem_append_right _ hmem)
  · obtain ⟨other, hother, rfl⟩ := List.mem_map.mp hmem
    obtain ⟨hmem, hunique⟩ := List.mem_filter.mp hother
    obtain rfl := List.mem_singleton.mp hmem
    exact .inr (hsafe hunique)

theorem renameTable_admissible (h : Admissible schema rows) (hcoherent : (schema.renameTable old new).Coherent)
    (hold : old ∈ schema.tableNames) :
    Admissible (schema.renameTable old new) ((Statement.renameTable old new).move schema rows) := by
  obtain ⟨first, hfirst, hname⟩ := List.mem_map.mp hold
  have hinj : ∀ table ∈ schema.tables, table.name ≠ old → table.name ≠ new := by
    intro table htable hne heq
    have hnames := hcoherent.names
    simp only [Schema.tableNames, Schema.renameTable, List.map_map] at hnames
    have hsame := List.inj_on_of_nodup_map hnames htable hfirst (by simp [hname, heq])
    exact hne (hsame ▸ hname)
  have hrows : ∀ table ∈ schema.tables, (Statement.renameTable old new).move schema rows
      (if table.name = old then new else table.name) = rows table.name := by
    intro table htable
    simp only [Statement.move]
    by_cases heq : table.name = old
    · rw [if_pos heq, if_pos rfl, heq]
    · rw [if_neg heq, if_neg (hinj table htable heq), if_neg heq]
  refine ⟨hcoherent, fun table' htable' => ?_⟩
  obtain ⟨table, htable, rfl⟩ := List.mem_map.mp htable'
  have hfits := h.fits table htable
  have heq := hrows table htable
  constructor
  · rw [heq]
    exact hfits.typed
  · rw [heq]
    exact hfits.apart
  · rw [heq]
    intro key' hkey' r hr
    obtain ⟨key, hkey, rfl⟩ := List.mem_map.mp hkey'
    obtain ⟨-, other, hother, honame, -⟩ := (h.coherent.tables table htable).references key hkey
    have href := hrows other hother
    rw [honame] at href
    unfold ForeignKey.Holds
    rw [href]
    exact hfits.holds key hkey r hr

theorem Schema.Coherent.table?_eq (h : schema.Coherent) {table : Table N} (htable : table ∈ schema.tables) :
    schema.table? table.name = some table := by
  cases hfind : schema.table? table.name with
  | none =>
    have hnone := List.find?_eq_none.mp hfind table htable
    simp at hnone
  | some other =>
    have hname : other.name = table.name := by simpa using List.find?_some hfind
    rw [h.table_eq (List.mem_of_find?_eq_some hfind) htable hname]

theorem Schema.Coherent.isOfType_iff (h : schema.Coherent) {table : Table N} (htable : table ∈ schema.tables)
    {column : Column N} (hcolumn : column ∈ table.columns) :
    schema.isOfType table.name column.name type = true ↔ column.type = .enum type := by
  rw [Schema.isOfType, h.table?_eq htable, Option.any_some, List.any_eq_true]
  constructor
  · rintro ⟨other, hother, hmatch⟩
    simp only [Bool.and_eq_true, decide_eq_true_eq] at hmatch
    have heq := List.inj_on_of_nodup_map (h.tables table htable).columns hother hcolumn hmatch.1
    exact heq ▸ hmatch.2
  · intro htype
    exact ⟨column, hcolumn, by simp [htype]⟩

section Relabel

variable {old new : String} {column : Column N}

@[simp] theorem Column.relabel_name : (column.relabel type old new).name = column.name := by
  unfold Column.relabel
  split_ifs <;> rfl

@[simp] theorem Column.relabel_admits (types : List (EnumType N)) (v : Value) :
    (column.relabel type old new).admits types v = column.admits types v := by
  unfold Column.relabel
  split_ifs <;> rfl

theorem admits_relabel {types : List (EnumType N)} (htype : column.type = .enum type) {v : Value}
    (hv : column.admits types v = true) :
    column.admits (types.map fun other => if other.name = type then
      { other with labels := other.labels.map fun label => if label = old then new else label } else other)
      (relabel old new v) = true := by
  unfold Column.admits at hv ⊢
  rw [htype] at hv ⊢
  cases v with
  | null => exact hv
  | text s =>
    rw [if_neg Value.noConfusion] at hv
    obtain ⟨other, hother, hlabel⟩ := List.any_eq_true.mp hv
    simp only [Bool.and_eq_true, decide_eq_true_eq, List.contains_iff_mem] at hlabel
    have hrelabel : relabel old new (.text s) = .text (if s = old then new else s) := by
      simp only [relabel, Value.text.injEq]
      split_ifs <;> rfl
    rw [hrelabel, if_neg Value.noConfusion]
    refine List.any_eq_true.mpr ⟨_, List.mem_map_of_mem hother, ?_⟩
    rw [if_pos hlabel.1]
    simp only [Bool.and_eq_true, decide_eq_true_eq, List.contains_iff_mem]
    exact ⟨hlabel.1, List.mem_map.mpr ⟨s, hlabel.2, rfl⟩⟩
  | _ => cases hv

theorem renameLabel_admissible (h : Admissible schema rows)
    (hcoherent : (schema.renameLabel type old new).Coherent)
    (hsafe : (Statement.renameLabel type old new).Safe schema rows) :
    Admissible (schema.renameLabel type old new) ((Statement.renameLabel type old new).move schema rows) := by
  refine h.evolve hcoherent (P := fun table n => schema.isOfType table n type = true)
    (f := fun table r n => if schema.isOfType table n type then relabel old new (r n) else r n)
    (fun table n hchanged => ?_) (fun table r n hchanged => if_neg hchanged) (fun table _ _ _ _ => rfl)
    fun table' htable' => .inr ?_
  · obtain ⟨other, hother, hany⟩ := (Option.any_eq_true _ _).mp hchanged
    obtain ⟨column, hcolumn, hmatch⟩ := List.any_eq_true.mp hany
    simp only [Bool.and_eq_true, decide_eq_true_eq] at hmatch
    have hname : other.name = table := by simpa using List.find?_some hother
    have hfree := hsafe other (List.mem_of_find?_eq_some hother) column hcolumn hmatch.2
    rwa [hname, hmatch.1] at hfree
  · obtain ⟨table, htable, rfl⟩ := List.mem_map.mp htable'
    refine ⟨table, htable, rfl, fun column' hcolumn' => ?_, fun columns hmem => .inl hmem, fun key hkey => .inl hkey⟩
    obtain ⟨column, hcolumn, rfl⟩ := List.mem_map.mp hcolumn'
    have hiff := @Schema.Coherent.isOfType_iff _ _ _ type h.coherent table htable column hcolumn
    by_cases htype : column.type = .enum type
    · refine .inr fun r hr => ?_
      obtain ⟨s, hs, rfl⟩ := List.mem_map.mp hr
      rw [Column.relabel_admits, Column.relabel_name]
      dsimp only
      rw [if_pos (hiff.mpr htype)]
      exact admits_relabel htype ((h.fits table htable).typed s hs column hcolumn)
    · refine .inl ⟨column, hcolumn, Column.relabel_name.symm, fun hchanged => htype (hiff.mp hchanged), fun v hv => ?_⟩
      rw [Column.relabel_admits]
      refine admits_mono (fun other hother hname => List.mem_map.mpr ⟨other, hother, if_neg fun heq => ?_⟩) hv
      exact htype (heq ▸ hname)

end Relabel

theorem update_admissible {set : List (N × Value)} {condition : Row N → Bool} (h : Admissible schema rows)
    (hsafe : (Statement.update name set condition).Safe schema rows) :
    Admissible schema ((Statement.update name set condition).move schema rows) := by
  refine h.evolve h.coherent (P := fun table n => table = name ∧ ∃ a ∈ set, a.1 = n)
    (f := fun table => if table = name then fun r => if condition r then assign r set else r else id)
    (fun table n hchanged => ?_) (fun table r n hchanged => ?_) (fun table _ _ _ _ => ?_) fun table htable => .inr ?_
  · obtain ⟨rfl, a, ha, rfl⟩ := hchanged
    exact (hsafe a ha).1
  · split_ifs with hname
    · dsimp only
      split_ifs
      · exact assign_of_notMem (fun a ha heq => hchanged ⟨hname, a, ha, heq⟩) r
      · rfl
    · rfl
  · simp only [Statement.move]
    by_cases heq : table.name = name
    · rw [heq, Function.update_self, if_pos rfl]
    · rw [Function.update_of_ne heq, if_neg heq, List.map_id]
  · refine ⟨table, htable, rfl, fun column hcolumn => ?_, fun columns hmem => .inl hmem, fun key hkey => .inl hkey⟩
    by_cases hchanged : table.name = name ∧ ∃ a ∈ set, a.1 = column.name
    · obtain ⟨rfl, -⟩ := hchanged
      refine .inr fun r hr => ?_
      simp only [Statement.move, Function.update_self, List.mem_map] at hr
      obtain ⟨s, hs, rfl⟩ := hr
      have htyped := (h.fits table htable).typed s hs column hcolumn
      split_ifs
      · rcases assign_eq s with heq | ⟨a, ha, hname, heq⟩
        · rwa [heq]
        · rw [heq]
          exact (hsafe a ha).2 table htable rfl column hcolumn hname.symm
      · exact htyped
    · exact .inl ⟨column, hcolumn, rfl, hchanged, fun _ hv => hv⟩

theorem Statement.admissible {statement : Statement N} (h : Admissible schema rows)
    (halter : statement.alter schema = some schema') (hcoherent : schema'.Coherent)
    (hsafe : statement.Safe schema rows) : Admissible schema' (statement.move schema rows) := by
  cases statement with
  | createType name labels =>
    cases halter
    refine h.weaken hcoherent (fun table htable => ⟨table, htable, rfl, fun _ h => h, fun _ h => h, fun _ h => h⟩)
      fun table _ column _ v hv => admits_mono (fun other hother _ => List.mem_append_left _ hother) hv
  | dropType name ifExists =>
    simp only [alter] at halter
    split_ifs at halter
    · cases halter
      refine h.weaken hcoherent (fun table htable => ⟨table, htable, rfl, fun _ h => h, fun _ h => h, fun _ h => h⟩)
        fun table htable column hcolumn v hv => admits_mono (fun other hother htype => ?_) hv
      have hknown := (hcoherent.tables table htable).types column hcolumn
      rw [htype] at hknown
      simp only [ColumnType.known, List.contains_iff_mem, List.mem_map, List.mem_filter] at hknown
      obtain ⟨known, ⟨-, hne⟩, hname⟩ := hknown
      exact List.mem_filter.mpr ⟨hother, by rwa [← hname]⟩
    · cases halter
      exact h
  | renameLabel type old new =>
    simp only [alter] at halter
    split_ifs at halter
    cases halter
    exact renameLabel_admissible h hcoherent hsafe
  | createTable table ifNotExists =>
    simp only [alter] at halter
    simp only [move]
    split_ifs at halter ⊢
    · cases halter
      exact h
    · cases halter
      exact createTable_admissible h hcoherent
  | dropTable name =>
    simp only [alter] at halter
    split_ifs at halter
    cases halter
    exact dropTable_admissible h name hcoherent
  | renameTable old new =>
    simp only [alter] at halter
    split_ifs at halter with hold
    cases halter
    exact renameTable_admissible h hcoherent hold
  | alterTable name change => exact change.admissible h halter hcoherent hsafe
  | createIndex name index ifNotExists =>
    simp only [alter] at halter
    split_ifs at halter
    · cases halter
      exact h
    · obtain ⟨table, htable, rfl, table', hindex, hschema⟩ := Schema.alterTable_eq_some halter
      cases hindex
      exact createIndex_admissible h htable hschema hcoherent hsafe
  | dropIndex name ifExists =>
    simp only [alter] at halter
    split_ifs at halter
    · cases halter
      refine h.weaken hcoherent (fun table' htable' => ?_) fun _ _ _ _ _ hv => hv
      obtain ⟨table, htable, rfl⟩ := List.mem_map.mp htable'
      refine ⟨table, htable, rfl, fun _ h => h, fun columns hmem => ?_, fun _ h => h⟩
      refine Table.uniques_subset (fun _ h => ?_) ?_ columns hmem
      · exact h
      · exact fun _ => List.mem_of_mem_filter
    · cases halter
      exact h
  | update name set condition =>
    simp only [alter] at halter
    split_ifs at halter
    cases halter
    exact update_admissible h hsafe

theorem Statement.exec_eq {statement : Statement N} {db : Instance N}
    (halter : statement.alter db.schema = some schema') (hcoherent : schema'.Coherent)
    (hsafe : statement.Safe db.schema db.rows) :
    ∃ h, statement.exec db = some ⟨schema', statement.move db.schema db.rows, h⟩ := by
  have h := statement.admissible db.admissible halter hcoherent hsafe
  exact ⟨h, by rw [Statement.exec, halter, Option.bind_some, dif_pos h]⟩

end Statements

end SkillBridge.Relational

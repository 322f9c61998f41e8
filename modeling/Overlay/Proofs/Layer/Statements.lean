import Overlay.Proofs.Layer.Blocks
import Overlay.Proofs.Layer.Triggers
import Overlay.Proofs.SchemaText.Names
import Overlay.Proofs.SchemaText.RoundTrip

/-!
# The statements in the definitions of a schema

The definitions of a schema are statements with a blank line between any two of them. If the schema
was read from a text, no line of a statement is empty, so that cutting the definitions at their
blank lines gives the statements (`Schema.pieces_schemaDefinition`).
-/

namespace Overlay

open Text TriggerText

/-! ### Pieces between blank lines -/

/-- The pieces of a text between its blank lines. A blank line is a line break that comes directly
behind another. -/
def cutAtBlankLines : List Char → List (List Char)
  | [] => [[]]
  | '\n' :: '\n' :: cs => [] :: cutAtBlankLines cs
  | c :: cs => (cutAtBlankLines cs).modifyHead (c :: ·)

/-- The pieces of a text between its blank lines. -/
def pieces (text : String) : List String :=
  (cutAtBlankLines text.toList).map String.ofList

/-- No line of the text is empty. -/
def Gapless (text : String) : Prop :=
  [] ∉ TriggerText.lines text

/-- Behind each line break there is a character, and it is no line break. -/
def Tight (cs : List Char) : Prop :=
  ∀ before after, cs = before ++ '\n' :: after → ∃ c rest, after = c :: rest ∧ c ≠ '\n'

section

variable {a b text : String} {c : Char} {cs rest : List Char} {l : List String}

theorem Tight.tail (h : Tight (c :: cs)) : Tight cs := fun before after hcs =>
  h (c :: before) after (congrArg (c :: ·) hcs)

theorem Gapless.tight (h : Gapless text) : Tight text.toList := by
  intro before after hsplit
  rw [Gapless, TriggerText.lines, hsplit, List.splitOn_append_cons_self, List.mem_append,
    not_or] at h
  obtain ⟨-, hafter⟩ := h
  cases after with
  | nil => exact absurd (List.mem_singleton_self _) hafter
  | cons c rest =>
    refine ⟨c, rest, rfl, ?_⟩
    rintro rfl
    have hempty : List.splitOn '\n' ('\n' :: rest) = [] :: List.splitOn '\n' rest :=
      List.splitOn_append_cons_self [] rest
    exact hafter (hempty ▸ List.mem_cons_self)

theorem cutAtBlankLines_cons (h : c = '\n' → rest.head? ≠ some '\n') :
    cutAtBlankLines (c :: rest) = (cutAtBlankLines rest).modifyHead (c :: ·) := by
  rw [cutAtBlankLines]
  rintro cs' rfl rfl
  exact h rfl rfl

/-- In front of a character of a tight text nothing is cut. -/
theorem Tight.cutAtBlankLines_cons_append (h : Tight (c :: cs)) :
    cutAtBlankLines (c :: cs ++ rest) = (cutAtBlankLines (cs ++ rest)).modifyHead (c :: ·) := by
  refine cutAtBlankLines_cons ?_
  rintro rfl
  obtain ⟨d, tail, rfl, hd⟩ := h [] cs rfl
  simpa using hd

theorem cutAtBlankLines_of_tight (h : Tight cs) : cutAtBlankLines cs = [cs] := by
  induction cs with
  | nil => rfl
  | cons c cs ih =>
    have hcons : cutAtBlankLines (c :: cs ++ []) =
        (cutAtBlankLines (cs ++ [])).modifyHead (c :: ·) :=
      h.cutAtBlankLines_cons_append
    rw [List.append_nil, List.append_nil, ih h.tail] at hcons
    exact hcons

theorem cutAtBlankLines_append (h : Tight cs) :
    cutAtBlankLines (cs ++ '\n' :: '\n' :: rest) = cs :: cutAtBlankLines rest := by
  induction cs with
  | nil => rfl
  | cons c cs ih =>
    rw [h.cutAtBlankLines_cons_append, ih h.tail]
    rfl

theorem pieces_of_gapless (h : Gapless a) : pieces a = [a] := by
  rw [pieces, cutAtBlankLines_of_tight h.tight, List.map_singleton, String.ofList_toList]

theorem pieces_append (h : Gapless a) : pieces (a ++ "\n\n" ++ b) = a :: pieces b := by
  have hlist : (a ++ "\n\n" ++ b).toList = a.toList ++ '\n' :: '\n' :: b.toList := by simp
  rw [pieces, hlist, cutAtBlankLines_append h.tight, List.map_cons, String.ofList_toList, pieces]

/-- Texts without empty lines are read back from the text that has a blank line between any two of
them. -/
theorem pieces_intercalate (h : ∀ text ∈ l, Gapless text) (hne : l ≠ []) :
    pieces ("\n\n".intercalate l) = l := by
  induction l with
  | nil => exact absurd rfl hne
  | cons a l ih =>
    obtain ⟨ha, hl⟩ := List.forall_mem_cons.1 h
    cases l with
    | nil => rw [String.intercalate_singleton, pieces_of_gapless ha]
    | cons b l => rw [String.intercalate_cons_cons, pieces_append ha, ih hl (List.cons_ne_nil b l)]

/-! ### Texts without empty lines -/

theorem gapless_of_unbroken (h : Unbroken a) (hne : a ≠ "") : Gapless a := by
  rw [Gapless, TriggerText.lines, List.splitOn_eq_singleton h, List.mem_singleton, eq_comm,
    String.toList_eq_nil_iff]
  exact hne

theorem gapless_append_newline_iff : Gapless (a ++ "\n" ++ b) ↔ Gapless a ∧ Gapless b := by
  have hlist : (a ++ "\n" ++ b).toList = a.toList ++ '\n' :: b.toList := by simp
  rw [Gapless, TriggerText.lines, hlist, List.splitOn_append_cons_self, List.mem_append, not_or]
  rfl

/-- A line has a character and no line break. -/
def IsLine (line : String) : Prop :=
  line ≠ "" ∧ Unbroken line

theorem IsLine.gapless (h : IsLine a) : Gapless a :=
  gapless_of_unbroken h.2 h.1

theorem IsLine.append (h : IsLine a) (hb : Unbroken b) : IsLine (a ++ b) :=
  ⟨fun hempty => h.1 (String.append_eq_empty_iff.1 hempty).1, unbroken_append_iff.2 ⟨h.2, hb⟩⟩

/-- Lines in front of a text are lines of the text. -/
theorem gapless_join_append (h : ∀ line ∈ l, IsLine line) (hb : Gapless b) :
    Gapless (String.join (l.map (· ++ "\n")) ++ b) := by
  induction l with
  | nil => rwa [List.map_nil, String.join_nil, String.empty_append]
  | cons line l ih =>
    obtain ⟨hline, hl⟩ := List.forall_mem_cons.1 h
    rw [List.map_cons, String.join_cons, String.append_assoc, gapless_append_newline_iff]
    exact ⟨hline.gapless, ih hl⟩

/-- Lines with a comma behind each but the last. -/
theorem gapless_intercalate_comma (h : ∀ line ∈ l, IsLine line) (hne : l ≠ []) :
    Gapless (String.intercalate ",\n" l) := by
  induction l with
  | nil => exact absurd rfl hne
  | cons line l ih =>
    obtain ⟨hline, hl⟩ := List.forall_mem_cons.1 h
    cases l with
    | nil =>
      rw [String.intercalate_singleton]
      exact hline.gapless
    | cons next l =>
      have hcomma : line ++ ",\n" = line ++ "," ++ "\n" := by simp [← String.toList_inj]
      rw [String.intercalate_cons_cons, hcomma, gapless_append_newline_iff]
      exact ⟨(hline.append (by decide)).gapless, ih hl (List.cons_ne_nil next l)⟩

end

/-! ### Statements of a layer -/

section

variable {key : List String} {columns : List Column} {c : Column} {schema : String}
  {t : Table}

theorem ColumnType.unbroken_name (type : ColumnType) : Unbroken type.name := by
  cases type <;> decide

theorem Column.isLine_definition (h : Unbroken c.name) (key : Option (List String)) :
    IsLine (c.definition key) := by
  have hmark : Unbroken
      (if !c.nullable || key.any (keyNames · c.name) then " NOT NULL" else "") := by
    split <;> decide
  have hblanks : IsLine "    " := ⟨by decide, by decide⟩
  exact (((hblanks.append h).append (by decide)).append c.type.unbroken_name).append hmark

theorem isLine_keyDefinition (h : ∀ k ∈ key, Unbroken k) : IsLine (keyDefinition key) := by
  have hstart : IsLine "    PRIMARY KEY(" := ⟨by decide, by decide⟩
  exact (hstart.append (unbroken_columnList h)).append (by decide)

theorem gapless_columnBlock (hcolumns : ∀ c ∈ columns, Unbroken c.name)
    (hkey : ∀ k ∈ key, Unbroken k) : Gapless (columnBlock columns (some key)) := by
  rw [columnBlock_some]
  refine gapless_intercalate_comma ?_ (by simp)
  rw [List.forall_mem_append, List.forall_mem_singleton]
  exact ⟨List.forall_mem_map.2 fun c hc => c.isLine_definition (hcolumns c hc) _,
    isLine_keyDefinition hkey⟩

theorem gapless_schemaStatement (h : Unbroken schema) : Gapless (schemaStatement schema) := by
  have hstart : IsLine "SET SCHEMA " := ⟨by decide, by decide⟩
  exact ((hstart.append h).append (by decide)).gapless

theorem Layer.gapless_shadowDefinition {π : Type} {l : Layer π} (hname : Unbroken l.shadow.name)
    (hcolumns : ∀ c ∈ l.shadow.columns, Unbroken c.name) (hkey : ∀ k ∈ key, Unbroken k)
    (hshadow : l.shadow.primaryKey = some key) : Gapless l.shadowDefinition := by
  have hstart : IsLine "CREATE FOREIGN TABLE " := ⟨by decide, by decide⟩
  have hfirst : IsLine ("CREATE FOREIGN TABLE " ++ l.shadow.name ++ " (") :=
    (hstart.append hname).append (by decide)
  have hlast : IsLine ");" := ⟨by decide, by decide⟩
  have hlines : l.shadowDefinition = "CREATE FOREIGN TABLE " ++ l.shadow.name ++ " (" ++ "\n" ++
      columnBlock l.shadow.columns (some key) ++ "\n" ++ ");" := by
    unfold shadowDefinition
    simp [← String.toList_inj, hshadow]
  rw [hlines, gapless_append_newline_iff, gapless_append_newline_iff]
  exact ⟨⟨hfirst.gapless, gapless_columnBlock hcolumns hkey⟩, hlast.gapless⟩

namespace Redirection

variable {r : Redirection}

/-- The line of a query that reads the base relation. -/
theorem isLine_selectBase (h : r.NamesUnbroken) :
    IsLine ("SELECT " ++ columnList (r.columns.map (qualified "o")) ++ " FROM " ++ r.base.text ++
      " AS o LEFT OUTER JOIN " ++ r.shadow.text ++ " AS m ON (" ++
      equations (r.key.map fun k => (qualified "o" k, qualified "m" k)) ++ ") WHERE " ++
      qualified "m" statusColumn ++ " IS NULL ") := by
  have hstart : IsLine "SELECT " := ⟨by decide, by decide⟩
  have hcolumns : Unbroken (columnList (r.columns.map (qualified "o"))) :=
    unbroken_columnList (List.forall_mem_map.2 fun c hc =>
      unbroken_qualified (by decide) (h.columns c hc))
  have hkey : Unbroken (equations (r.key.map fun k => (qualified "o" k, qualified "m" k))) :=
    unbroken_equations (List.forall_mem_map.2 fun k hk =>
      ⟨unbroken_qualified (by decide) (h.key k hk), unbroken_qualified (by decide) (h.key k hk)⟩)
  have hstatus : Unbroken (qualified "m" statusColumn) := by decide +kernel
  simp only [String.append_assoc]
  refine hstart.append ?_
  simp only [unbroken_append_iff, hcolumns, h.base, h.shadow, hkey, hstatus]
  decide

/-- The line of a query that reads the shadow relation alone. -/
theorem isLine_selectShadow (h : r.NamesUnbroken) :
    IsLine ("SELECT " ++ columnList r.columns ++ " FROM " ++ r.shadow.text ++ " WHERE " ++
      statusColumn ++ " <> " ++ RowStatus.deleted.text ++ ";") := by
  have hstart : IsLine "SELECT " := ⟨by decide, by decide⟩
  have hstatus : Unbroken statusColumn := by decide +kernel
  have hdeleted : Unbroken RowStatus.deleted.text := by decide +kernel
  simp only [String.append_assoc]
  refine hstart.append ?_
  simp only [unbroken_append_iff, unbroken_columnList h.columns, h.shadow, hstatus, hdeleted]
  decide

theorem gapless_select (h : r.NamesUnbroken) : Gapless (r.select.text ++ ";") := by
  have hunion : IsLine " UNION ALL " := ⟨by decide, by decide⟩
  have hlines : r.select.text ++ ";" =
      "SELECT " ++ columnList (r.columns.map (qualified "o")) ++ " FROM " ++
        r.base.text ++ " AS o LEFT OUTER JOIN " ++ r.shadow.text ++ " AS m ON (" ++
        equations (r.key.map fun k => (qualified "o" k, qualified "m" k)) ++ ") WHERE " ++
        qualified "m" statusColumn ++ " IS NULL " ++ "\n" ++ " UNION ALL " ++ "\n" ++
        ("SELECT " ++ columnList r.columns ++ " FROM " ++ r.shadow.text ++
          " WHERE " ++ statusColumn ++ " <> " ++ RowStatus.deleted.text ++ ";") := by
    unfold MergeQuery.text
    simp [← String.toList_inj, select]
  rw [hlines, gapless_append_newline_iff, gapless_append_newline_iff]
  exact ⟨⟨(isLine_selectBase h).gapless, hunion.gapless⟩, (isLine_selectShadow h).gapless⟩

end Redirection

/-- No text of a body is empty, so that no line of its trigger is. -/
theorem Body.gapless_trigger (body : Body) (h : ∀ text ∈ body.texts, Unbroken text) :
    Gapless (body.trigger ++ ";") := by
  have hindented (d : Nat) (text : String) (htext : IsLine text) : IsLine (indented d text) :=
    ⟨fun hempty => htext.1 (String.append_eq_empty_iff.1 hempty).2, htext.2.indented d⟩
  have htexts (text : String) (htext : text ∈ body.texts) : IsLine text := by
    refine ⟨?_, h text htext⟩
    rintro rfl
    obtain ⟨c, -, hc⟩ := (body.plain_of_mem_texts "" htext).last
    exact absurd (List.suffix_nil.1 hc) (List.cons_ne_nil c [])
  have hbrackets : IsLine "BEGIN" ∧ IsLine "END" ∧ IsLine "ELSE" :=
    ⟨⟨by decide, by decide⟩, ⟨by decide, by decide⟩, ⟨by decide, by decide⟩⟩
  have hlines : ∀ line ∈ "FOR EACH ROW" :: "BEGIN ATOMIC" :: body.lines 1, IsLine line := by
    rw [List.forall_mem_cons, List.forall_mem_cons]
    exact ⟨⟨by decide, by decide⟩, ⟨by decide, by decide⟩,
      body.forall_mem_lines 1 hindented hbrackets htexts⟩
  have hend : IsLine ("END" ++ ";") := ⟨by decide, by decide⟩
  rw [trigger, triggerLines, Writer.intercalate_append_singleton, String.append_assoc]
  exact gapless_join_append hlines hend.gapless

theorem Layer.gapless_viewStatement {l : Layer PlanText} (hname : Unbroken l.name)
    (hcolumns : ∀ c ∈ l.columns, Unbroken c.name) (hkey : ∀ k ∈ l.primaryKey, Unbroken k)
    (hselect : Gapless (l.plan.select ++ ";")) : Gapless l.viewStatement := by
  have hfirst : IsLine ("CREATE VIEW " ++ l.name ++ " (") :=
    (IsLine.append ⟨by decide, by decide⟩ hname).append (by decide)
  have hoptions : IsLine ") OPTIONS (UPDATABLE \x27TRUE\x27)" := ⟨by decide, by decide⟩
  have has : IsLine "AS" := ⟨by decide, by decide⟩
  have hlines : l.viewStatement = "CREATE VIEW " ++ l.name ++ " (" ++ "\n" ++
      columnBlock l.columns (some l.primaryKey) ++ "\n" ++ ") OPTIONS (UPDATABLE \x27TRUE\x27)" ++
        "\n" ++ "AS" ++ "\n" ++ (l.plan.select ++ ";") := by
    unfold viewStatement
    simp [← String.toList_inj]
  rw [hlines]
  simp only [gapless_append_newline_iff]
  exact ⟨⟨⟨⟨hfirst.gapless, gapless_columnBlock hcolumns hkey⟩, hoptions.gapless⟩, has.gapless⟩,
    hselect⟩

theorem Layer.gapless_triggerStatement {π : Type} {l : Layer π} {event body : String}
    (hname : Unbroken l.name) (hevent : Unbroken event) (hbody : Gapless (body ++ ";")) :
    Gapless (l.triggerStatement event body) := by
  have hfirst : IsLine ("CREATE TRIGGER ON " ++ l.name ++ " INSTEAD OF " ++ event ++ " AS") :=
    (((IsLine.append ⟨by decide, by decide⟩ hname).append (by decide)).append hevent).append
      (by decide)
  have hlines : l.triggerStatement event body =
      "CREATE TRIGGER ON " ++ l.name ++ " INSTEAD OF " ++ event ++ " AS" ++ "\n" ++
        (body ++ ";") := by
    unfold triggerStatement
    simp [← String.toList_inj]
  rw [hlines, gapless_append_newline_iff]
  exact ⟨hfirst.gapless, hbody⟩

end

/-! ### Statements of a schema -/

/-- Writes the statement of a view and then those of its triggers, each behind a blank line and with
a line break at its end, and cuts off the white space at the end of the text. -/
def Layer.writeView (l : Layer PlanText) : String :=
  let triggers := [("INSERT", l.plan.insert), ("UPDATE", l.plan.update), ("DELETE", l.plan.delete)]
  let text := triggers.foldl (fun text (event, body) =>
    text ++ "\n" ++ l.triggerStatement event body ++ "\n") (l.viewStatement ++ "\n")
  String.ofList (text.toList.rdropWhile isBlank)

theorem Layer.viewDefinition_eq_append (l : Layer PlanText) : l.viewDefinition =
    l.viewStatement ++ "\n\n" ++ l.triggerStatement "INSERT" l.plan.insert ++ "\n\n" ++
      l.triggerStatement "UPDATE" l.plan.update ++ "\n\n" ++
        l.triggerStatement "DELETE" l.plan.delete := by
  simp only [viewDefinition, viewStatements, String.intercalate_cons_cons,
    String.intercalate_singleton, String.append_assoc]

/-- Nothing but a line break is cut off. -/
theorem Layer.writeView_eq (l : Layer PlanText) : l.writeView = l.viewDefinition := by
  have hend : ∃ front, l.viewDefinition = front ++ ";" := by
    have hlast : l.triggerStatement "DELETE" l.plan.delete = "CREATE TRIGGER ON " ++ l.name ++
        " INSTEAD OF " ++ "DELETE" ++ " AS\n" ++ l.plan.delete ++ ";" := rfl
    rw [l.viewDefinition_eq_append, hlast, ← String.append_assoc]
    exact ⟨_, rfl⟩
  obtain ⟨front, hfront⟩ := hend
  have htext : (l.viewStatement ++ "\n" ++ "\n" ++ l.triggerStatement "INSERT" l.plan.insert ++
      "\n" ++ "\n" ++ l.triggerStatement "UPDATE" l.plan.update ++
      "\n" ++ "\n" ++ l.triggerStatement "DELETE" l.plan.delete ++ "\n").toList =
        front.toList ++ [';'] ++ ['\n'] := by
    rw [← String.toList_singleton, ← String.toList_append, show String.singleton ';' = ";" from rfl,
      ← hfront, l.viewDefinition_eq_append]
    simp
  simp only [writeView, List.foldl_cons, List.foldl_nil]
  rw [htext, List.rdropWhile_concat_pos _ _ _ (by decide),
    List.rdropWhile_concat_neg _ _ _ (by decide), hfront]
  simp

/-- None of the names has a line break. -/
def Config.NamesUnbroken (config : Config) : Prop :=
  Unbroken config.redirectedSchema ∧ Unbroken config.baseAlias

/-- Texts that were put together before are put together with the rest. -/
theorem intercalate_cons_intercalate (separator : String) {group rest : List String}
    (h : group ≠ []) :
    separator.intercalate (separator.intercalate group :: rest) =
      separator.intercalate (group ++ rest) := by
  cases rest with
  | nil => rw [String.intercalate_singleton, List.append_nil]
  | cons text rest =>
    rw [String.intercalate_cons_of_ne_nil (List.cons_ne_nil text rest),
      String.intercalate_append_of_ne_nil h (List.cons_ne_nil text rest)]

theorem intercalate_append_map_intercalate {separator : String} {front : List String}
    {groups : List (List String)} (hfront : front ≠ []) (h : ∀ group ∈ groups, group ≠ []) :
    separator.intercalate (front ++ groups.map (separator.intercalate ·)) =
      separator.intercalate (front ++ groups.flatten) := by
  induction groups generalizing front with
  | nil => rfl
  | cons group groups ih =>
    obtain ⟨hgroup, hgroups⟩ := List.forall_mem_cons.1 h
    have hne : group ++ groups.map (separator.intercalate ·) ≠ [] := by simp [hgroup]
    rw [List.flatten_cons, ← List.append_assoc, ← ih (by simp [hfront]) hgroups, List.append_assoc,
      List.map_cons, String.intercalate_append_of_ne_nil hfront (List.cons_ne_nil _ _),
      intercalate_cons_intercalate separator hgroup,
      ← String.intercalate_append_of_ne_nil hfront hne]

section

variable {text : String} {s : Schema} {config : Config} {l : Layer Plan} {ls : List (Layer Plan)}
  {name : String}

theorem Table.Writable.isWord_names {t : Table} (h : t.Writable) : ∀ n ∈ t.names, IsWord n := by
  have hkey : ∀ n ∈ t.primaryKey.getD [], IsWord n := by
    cases hprimary : t.primaryKey with
    | none => exact List.forall_mem_nil _
    | some key => exact (h.primaryKey key hprimary).2
  have hkeys : ∀ n ∈ t.foreignKeys.flatMap fun fk => fk.columns ++ fk.targetColumns, IsWord n :=
    List.forall_mem_flatMap.2 fun fk hfk =>
      List.forall_mem_append.2 ⟨(h.sources fk hfk).2, (h.targets fk hfk).2.2⟩
  rw [names, List.forall_mem_append, List.forall_mem_append, List.forall_mem_cons]
  exact ⟨⟨⟨h.name, List.forall_mem_map.2 h.columns⟩, hkey⟩, hkeys⟩

/-- No name in a schema that was read from a text has a line break. -/
theorem Schema.unbroken_of_read (h : read text = .ok s) : ∀ n ∈ s.names, Unbroken n := by
  have hworded := worded_of_read h
  have hwritable := hworded.writable (valid_of_read h).2
  have hwords : ∀ n ∈ s.names, IsWord n := List.forall_mem_cons.2
    ⟨hworded.name, List.forall_mem_flatMap.2 fun t ht => (hwritable t ht).isWord_names⟩
  exact fun n hn => (hwords n hn).newline_notMem

/-- No statement of a layer has an empty line. -/
theorem Schema.gapless_of_layer (hnames : ∀ n ∈ s.names, Unbroken n)
    (hconfig : config.NamesUnbroken) (hl : s.layer config name = .ok l) :
    Gapless l.shadowDefinition ∧ ∀ statement ∈ l.written.viewStatements, Gapless statement := by
  obtain ⟨hredirected, halias⟩ := hconfig
  obtain ⟨t, key, hfirst, hkey, -, rfl⟩ := layer_eq_ok_iff_redirectable.1 hl
  obtain ⟨ht, -⟩ := mem_of_table? (table?_eq_some_iff_first.2 hfirst)
  have hunbroken := Table.namesUnbroken_redirection hnames halias hredirected ht hkey
  have hname : Unbroken t.name := hnames _ (Table.name_mem_names ht _ (by simp [Table.names]))
  have hcolumns : ∀ c ∈ t.columns, Unbroken c.name := fun c hc =>
    hunbroken.columns c.name (List.mem_map_of_mem hc)
  have htrigger {body : Body} (hbody : body ∈ [(t.redirection config s key).insert,
      (t.redirection config s key).update, (t.redirection config s key).delete]) :
      Gapless (body.trigger ++ ";") :=
    body.gapless_trigger (Redirection.unbroken_texts hunbroken hbody)
  have hshadow : ∀ c ∈ (t.shadow key).columns, Unbroken c.name := by
    have hstatus : Unbroken statusColumnDef.name := by decide +kernel
    refine List.forall_mem_append.2 ⟨List.forall_mem_map.2 fun c hc => ?_,
      List.forall_mem_singleton.2 hstatus⟩
    rw [Column.name_shadow]
    exact hcolumns c hc
  refine ⟨Layer.gapless_shadowDefinition (unbroken_append_iff.2 ⟨hname, by decide⟩) hshadow
    hunbroken.key rfl, ?_⟩
  rw [Layer.viewStatements, Table.plan_written_layer]
  simp only [List.forall_mem_cons]
  refine ⟨Layer.gapless_viewStatement hname hcolumns hunbroken.key ?_,
    Layer.gapless_triggerStatement hname (by decide) (htrigger (by simp)),
    Layer.gapless_triggerStatement hname (by decide) (htrigger (by simp)),
    Layer.gapless_triggerStatement hname (by decide) (htrigger (by simp)), List.forall_mem_nil _⟩
  exact Redirection.gapless_select hunbroken

/-- The statements of a schema, in order. -/
def statements (config : Config) (ls : List (Layer Plan)) : List String :=
  schemaStatement config.redirectedSchema :: ls.map Layer.shadowDefinition ++
    schemaStatement config.baseAlias :: ls.flatMap (·.written.viewStatements)

theorem schemaDefinition_eq_intercalate (config : Config) (ls : List (Layer Plan)) :
    schemaDefinition config (ls.map Layer.written) =
      "\n\n".intercalate (statements config ls) := by
  have hshadow : (ls.map Layer.written).map Layer.shadowDefinition =
      ls.map Layer.shadowDefinition := by
    rw [List.map_map]
    rfl
  have hview : (ls.map Layer.written).map Layer.viewDefinition =
      (ls.map fun l => l.written.viewStatements).map ("\n\n".intercalate ·) := by
    rw [List.map_map, List.map_map]
    rfl
  have hgroups : ∀ group ∈ ls.map fun l => l.written.viewStatements, group ≠ [] :=
    List.forall_mem_map.2 fun l _ => List.cons_ne_nil _ _
  rw [schemaDefinition, hshadow, hview, statements, List.flatMap_def,
    List.append_cons, List.append_cons _ _ (List.flatten _)]
  exact intercalate_append_map_intercalate (by simp) hgroups

theorem length_statements (config : Config) (ls : List (Layer Plan)) :
    (statements config ls).length = 2 + 5 * ls.length := by
  have hviews : (ls.flatMap fun l => l.written.viewStatements).length = 4 * ls.length := by
    simp [List.length_flatMap, Layer.viewStatements, Nat.mul_comm]
  rw [statements, List.length_append, List.length_cons, List.length_cons, List.length_map, hviews]
  omega

theorem terminated_statements (config : Config) (ls : List (Layer Plan)) :
    ∀ statement ∈ statements config ls, ∃ front, statement = front ++ ";" := by
  have hviews (l : Layer PlanText) :
      ∀ statement ∈ l.viewStatements, ∃ front, statement = front ++ ";" := by
    simp only [Layer.viewStatements, List.forall_mem_cons]
    exact ⟨⟨_, rfl⟩, ⟨_, rfl⟩, ⟨_, rfl⟩, ⟨_, rfl⟩, List.forall_mem_nil _⟩
  have hshadow (l : Layer Plan) : ∃ front, l.shadowDefinition = front ++ ";" := by
    refine ⟨"CREATE FOREIGN TABLE " ++ l.shadow.name ++ " (\n" ++
      columnBlock l.shadow.columns l.shadow.primaryKey ++ "\n)", ?_⟩
    unfold Layer.shadowDefinition
    simp [← String.toList_inj]
  rw [statements, List.forall_mem_append, List.forall_mem_cons, List.forall_mem_cons]
  exact ⟨⟨⟨_, rfl⟩, List.forall_mem_map.2 fun l _ => hshadow l⟩, ⟨_, rfl⟩,
    List.forall_mem_flatMap.2 fun l _ => hviews l.written⟩

/-- The statements of the view of a layer: each trigger has the text of the plan for its event. -/
def Layer.HasViewStatements (l : Layer PlanText) (statements : List String) : Prop :=
  ∃ block, statements =
    ["CREATE VIEW " ++ l.name ++ block ++ l.plan.select ++ ";",
      "CREATE TRIGGER ON " ++ l.name ++ " INSTEAD OF INSERT AS\n" ++ l.plan.insert ++ ";",
      "CREATE TRIGGER ON " ++ l.name ++ " INSTEAD OF UPDATE AS\n" ++ l.plan.update ++ ";",
      "CREATE TRIGGER ON " ++ l.name ++ " INSTEAD OF DELETE AS\n" ++ l.plan.delete ++ ";"]

theorem Layer.hasViewStatements (l : Layer PlanText) : l.HasViewStatements l.viewStatements := by
  refine ⟨" (\n" ++ columnBlock l.columns (some l.primaryKey) ++
    "\n) OPTIONS (UPDATABLE \x27TRUE\x27)\nAS\n", ?_⟩
  rw [viewStatements]
  unfold viewStatement triggerStatement
  simp [← String.toList_inj]

/-- The definitions of a schema that was read from a text are cut at their blank lines into two
statements and five for each table, in order. The definitions may be written for other names than
those the layers were built for. -/
theorem Schema.pieces_schemaDefinition {names : Config} (hread : read text = .ok s)
    (hconfig : config.NamesUnbroken) (hnames : names.NamesUnbroken)
    (hlayers : s.layers config = .ok ls) :
    (∃ views : List (List String),
      pieces (schemaDefinition names (ls.map Layer.written)) =
        ("SET SCHEMA " ++ names.redirectedSchema ++ ";") :: ls.map Layer.shadowDefinition ++
          ("SET SCHEMA " ++ names.baseAlias ++ ";") :: views.flatten ∧
      List.Forall₂ (fun l view => l.written.HasViewStatements view) ls views) ∧
    (pieces (schemaDefinition names (ls.map Layer.written))).length = 2 + 5 * s.tables.length ∧
    (∀ piece ∈ pieces (schemaDefinition names (ls.map Layer.written)),
      ∃ front, piece = front ++ ";") ∧
    List.Forall₂ (fun t l => l.name = t.name) s.tables ls ∧
    ∀ l ∈ ls, l.written.writeView = l.written.viewDefinition := by
  obtain ⟨hdistinct, hkeyed⟩ := valid_of_read hread
  have hunbroken := unbroken_of_read hread
  have htables := (hkeyed.builds hdistinct config).layers_ok ls hlayers
  have hgapless (l : Layer Plan) (hl : l ∈ ls) : Gapless l.shadowDefinition ∧
      ∀ statement ∈ l.written.viewStatements, Gapless statement := by
    obtain ⟨hkeys, rfl⟩ := (hkeyed.layers_eq_ok_iff hdistinct).1 hlayers
    obtain ⟨t, ht, rfl⟩ := List.mem_map.1 hl
    exact gapless_of_layer hunbroken hconfig
      ((hkeyed.layer_eq_ok_iff hdistinct ht (sameName_refl t.name)).2 ⟨hkeys t ht, rfl⟩)
  have hpieces : pieces (schemaDefinition names (ls.map Layer.written)) = statements names ls := by
    rw [schemaDefinition_eq_intercalate]
    refine pieces_intercalate ?_ (by simp [statements])
    rw [statements, List.forall_mem_append, List.forall_mem_cons, List.forall_mem_cons]
    exact ⟨⟨gapless_schemaStatement hnames.1, List.forall_mem_map.2 fun l hl => (hgapless l hl).1⟩,
      gapless_schemaStatement hnames.2, List.forall_mem_flatMap.2 fun l hl => (hgapless l hl).2⟩
  rw [hpieces]
  refine ⟨⟨ls.map fun l => l.written.viewStatements, ?_, ?_⟩, ?_, terminated_statements names ls,
    htables.imp fun _ _ h => h.1, fun l _ => l.written.writeView_eq⟩
  · rw [statements, List.flatMap_def]
    rfl
  · rw [List.forall₂_map_right_iff, List.forall₂_same]
    exact fun l _ => l.written.hasViewStatements
  · rw [length_statements, htables.length_eq]

end

/-- The definitions of two tables, of which one refers to the other. -/
theorem Schema.pieces_schemaDefinition_linked :
    ∃ s ls, read ("schema s\ntable a\x7b\nk int primary_key\n\x7d\n" ++
        "table b\x7b\nk int primary_key\na int references a(k)\n\x7d") = .ok s ∧
      Config.NamesUnbroken {} ∧ s.layers {} = .ok ls ∧
      (pieces (schemaDefinition {} (ls.map Layer.written))).length = 12 := by
  let k : Column := { name := "k", type := .integer, nullable := false }
  let a : Table := { name := "a", columns := [k], primaryKey := some ["k"], foreignKeys := [] }
  let b : Table :=
    { name := "b"
      columns := [k, { name := "a", type := .integer, nullable := true }]
      primaryKey := some ["k"]
      foreignKeys := [{ columns := ["a"], target := "a", targetColumns := ["k"] }] }
  have hread : read ("schema s\ntable a\x7b\nk int primary_key\n\x7d\n" ++
      "table b\x7b\nk int primary_key\na int references a(k)\n\x7d") =
        .ok { name := "s", tables := [a, b] } := by
    decide +kernel
  have hconfig : Config.NamesUnbroken {} := ⟨by decide, by decide⟩
  obtain ⟨ls, hlayers⟩ := ((builds_of_read hread).2.2.2 {}).layers_isOk.2 (by decide)
  exact ⟨_, ls, hread, hconfig, hlayers,
    (pieces_schemaDefinition hread hconfig hconfig hlayers).2.1⟩

end Overlay

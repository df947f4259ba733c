import SqlMapper.Sql.Request

/-!
# Pieces of SQL

A statement is composed of fixed text, names and bound values before a dialect gives it its letters.
Placeholders and parameters both come from the bound values in order, so they cannot get out of
step, and a bound value never reaches the text.
-/

namespace SqlMapper

/-- A part of a statement. -/
inductive Piece where
  /-- Fixed words and marks. -/
  | text (s : String)
  /-- A name of a table, column or index. -/
  | name (s : String)
  /-- A value sent beside the text, with the database type of its column. -/
  | bind (value : Value) (sqlType : String)

abbrev Sql := List Piece

namespace Sql

def text (s : String) : Sql := [.text s]

/-- Parts with a fixed text between them. -/
def joined (separator : String) : List Sql → Sql
  | [] => []
  | [part] => part
  | part :: parts => part ++ .text separator :: joined separator parts

def enclosed (sql : Sql) : Sql := .text "(" :: sql ++ [.text ")"]

def params (sql : Sql) : List Param :=
  sql.filterMap fun
    | .bind value sqlType => some ⟨value, sqlType⟩
    | _ => none

@[simp] theorem params_append (a b : Sql) : params (a ++ b) = params a ++ params b :=
  List.filterMap_append

@[simp] theorem params_nil : params [] = [] := rfl

@[simp] theorem params_text (s : String) (sql : Sql) : params (.text s :: sql) = params sql := rfl

@[simp] theorem params_name (s : String) (sql : Sql) : params (.name s :: sql) = params sql := rfl

@[simp] theorem params_bind (v : Value) (t : String) (sql : Sql) :
    params (.bind v t :: sql) = ⟨v, t⟩ :: params sql := rfl

end Sql

end SqlMapper

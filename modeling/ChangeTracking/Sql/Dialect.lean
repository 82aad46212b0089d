import ChangeTracking.Backend
import ChangeTracking.Plan.Expr
import ChangeTracking.Sql.Fragment
import ChangeTracking.Text.Chars
import ChangeTracking.Text.LetterCase

/-!
# Dialects

How a database spells names, rows, casts and session values.  A dialect is a record of
spelling rules; whatever all databases share is derived from it.
-/

namespace ChangeTracking.Sql

open Plan (RowRole)
open Tracking (ValueClass)

/-! ## User variables

Some databases keep session values in user variables, whose names allow ASCII letters, digits
and underscores only. -/

/-- A character of a user variable's name. -/
def foldVariableChar (c : Char) : Char :=
  if c.isAlphanum then c.toLower else '_'

/-- The user variable that holds the session value called `key`. -/
def userVariable (key : String) : String :=
  String.ofList ('@' :: key.toList.map foldVariableChar)

/-! ## Spelling rules -/

/-- A constant that an SQL list may hold. -/
inductive Constant
  | number (n : Nat)
  | text (s : String)
  deriving DecidableEq, Repr

def Constant.spelling : Constant → String
  | number n => toString n
  | text s => Text.sqlLiteral s

/-- The spelling rules of a database. -/
structure Dialect where
  backend : Backend
  /-- Names stay as they are. -/
  quoted : Bool
  /-- The letter case that the database gives to names. -/
  fold : String → String
  /-- Column names are folded like table names. -/
  foldsColumns : Bool
  /-- A column of a trigger row. -/
  rowColumn : RowRole → String → Fragment
  /-- A local of the trigger. -/
  localValue : String → Fragment
  /-- A value as text. -/
  textCast : ValueClass → Fragment → Fragment
  /-- The stored values that mean true, unless the database has truth values. -/
  trueValues : Option (List Constant)
  /-- The name of the function that cuts texts. -/
  substringName : String
  /-- A value of the session. -/
  sessionValue : String → Fragment
  /-- The session value that holds the locale. -/
  localeKey : String
  /-- A cleared session value reads as the empty text. -/
  clearsToEmpty : Bool
  /-- Alternatives from several tables are ranked in one query. -/
  ranksAlternatives : Bool
  /-- A fresh identifier. -/
  freshId : String
  /-- The current time. -/
  now : String
  /-- The acting user. -/
  currentUser : Fragment
  /-- The transaction. -/
  transactionId : Fragment

namespace Dialect

/-- The table of an entity before quoting. -/
def tableStem (d : Dialect) (entity : String) : String :=
  d.fold (Text.replaceChar '.' "_" entity)

/-- The table of an entity as the catalog knows it. -/
def catalogTable (d : Dialect) (entity : String) : String :=
  if d.quoted then entity else d.tableStem entity

def tableName (d : Dialect) (entity : String) : String :=
  Text.sqlIdentifier (d.catalogTable entity)

/-- A column as the catalog knows it. -/
def catalogColumn (d : Dialect) (column : String) : String :=
  if d.quoted || !d.foldsColumns then column else d.fold column

def columnName (d : Dialect) (column : String) : String :=
  Text.sqlIdentifier (d.catalogColumn column)

/-- The value means true. -/
def isTrue (d : Dialect) (value : Fragment) : Fragment :=
  match d.trueValues with
  | none => value ++ " = TRUE"
  | some constants =>
      value ++ (" IN (" ++ ", ".intercalate (constants.map Constant.spelling) ++ ")")

/-- The number of characters of a text. -/
def length (value : Fragment) : Fragment :=
  Fragment.ofText "LENGTH(" ++ value ++ ")"

/-- The characters of a text from a position on, all or some of them. -/
def substring (d : Dialect) (value : Fragment) (start : Nat) (count : Option Nat) : Fragment :=
  Fragment.ofText (d.substringName ++ "(") ++ value
    ++ (", " ++ toString start
      ++ (match count with
        | some n => ", " ++ toString n
        | none => "")
      ++ ")")

def concat (parts : List Fragment) : Fragment := Fragment.join " || " parts

/-- The first value that is there. -/
def coalesce (parts : List Fragment) : Fragment :=
  Fragment.ofText "COALESCE(" ++ Fragment.join ", " parts ++ ")"

/-- The value, unless it is the empty text. -/
def nullIfEmpty (value : Fragment) : Fragment :=
  Fragment.ofText "NULLIF(" ++ value ++ ", '')"

/-- A session value; a cleared one is missing. -/
def setting (d : Dialect) (key : String) : Fragment :=
  if d.clearsToEmpty then nullIfEmpty (d.sessionValue key) else d.sessionValue key

def locale (d : Dialect) : Fragment := d.setting d.localeKey

/-- A skip flag is set; one that was never set is not. -/
def flagSet (d : Dialect) (flag : String) : Fragment :=
  coalesce [d.sessionValue flag, Text.sqlLiteral "false"] ++ " = 'true'"

/-! ## The four dialects -/

/-- Rows are `old` and `new`; session values come from a function of the host.  Column
names match in any letter case, so they are never folded. -/
def sqlite (quoted : Bool) : Dialect :=
  let sessionValue (key : String) : Fragment := "session_context(" ++ Text.sqlLiteral key ++ ")"
  { backend := .sqlite
    quoted := quoted
    fold := Text.upperCase
    foldsColumns := false
    rowColumn := fun row column =>
      (match row with
        | .old => "old."
        | _ => "new.") ++ Text.sqlIdentifier column
    localValue := sessionValue
    textCast := fun valueClass value =>
      if valueClass.isTemporal then value
      else Fragment.ofText "CAST(" ++ value ++ " AS TEXT)"
    trueValues := some [.number 1, .text "1", .text "true"]
    substringName := "SUBSTR"
    sessionValue := sessionValue
    localeKey := "$user.locale"
    clearsToEmpty := false
    ranksAlternatives := true
    freshId := "lower(hex(randomblob(16)))"
    now := "strftime('%Y-%m-%dT%H:%M:%fZ', 'now')"
    currentUser := sessionValue "$user.id"
    transactionId := sessionValue "$transaction.id" }

/-- Names fold to upper case, rows and locals are marked by a colon. -/
def hana (quoted : Bool) : Dialect :=
  let column (name : String) : String :=
    Text.sqlIdentifier (if quoted then name else Text.upperCase name)
  let sessionValue (key : String) : Fragment := "SESSION_CONTEXT(" ++ Text.sqlLiteral key ++ ")"
  { backend := .hana
    quoted := quoted
    fold := Text.upperCase
    foldsColumns := true
    rowColumn := fun row name =>
      (match row with
        | .old => ":OLD."
        | _ => ":NEW.") ++ column name
    localValue := fun name => ":" ++ Text.upperCase name
    textCast := fun _ value => Fragment.ofText "TO_NVARCHAR(" ++ value ++ ")"
    trueValues := none
    substringName := "SUBSTRING"
    sessionValue := sessionValue
    localeKey := "LOCALE"
    clearsToEmpty := false
    ranksAlternatives := false
    freshId := "SYSUUID"
    now := "CURRENT_UTCTIMESTAMP"
    currentUser := sessionValue "APPLICATIONUSER"
    transactionId := "CURRENT_UPDATE_TRANSACTION()" }

/-- Rows and locals are values of the host program and become parameters, cast so that
the database knows their type. -/
def h2 (quoted : Bool) : Dialect :=
  let parameter (host : String) : Fragment :=
    Fragment.ofText "CAST(" ++ Fragment.ofParameter host ++ " AS VARCHAR)"
  { backend := .h2
    quoted := quoted
    fold := Text.upperCase
    foldsColumns := true
    rowColumn := fun row name =>
      parameter ("value("
        ++ (match row with
          | .old => "oldRow"
          | _ => "newRow")
        ++ ", " ++ Text.javaLiteral (if quoted then name else Text.upperCase name) ++ ")")
    localValue := parameter
    textCast := fun _ value => Fragment.ofText "CAST(" ++ value ++ " AS VARCHAR)"
    trueValues := some [.text "TRUE", .text "true", .text "1"]
    substringName := "SUBSTRING"
    sessionValue := fun key => userVariable key
    localeKey := "changelog.locale"
    clearsToEmpty := false
    ranksAlternatives := false
    freshId := "RANDOM_UUID()"
    now := "CURRENT_TIMESTAMP"
    currentUser := coalesce [userVariable "changelog.user", "CURRENT_USER"]
    transactionId := userVariable "changelog.transaction" }

/-- The local of a function body that holds a computed value. -/
def postgresLocal (name : String) : String := "v_" ++ name

/-- Names fold to lower case; the row that the operation is about is a local record.  A
session value cannot be removed, so a cleared one reads as the empty text. -/
def postgres (quoted : Bool) : Dialect :=
  let column (name : String) : String :=
    Text.sqlIdentifier (if quoted then name else Text.lowerCase name)
  let sessionValue (key : String) : Fragment :=
    "current_setting(" ++ Text.sqlLiteral key ++ ", true)"
  { backend := .postgres
    quoted := quoted
    fold := Text.lowerCase
    foldsColumns := true
    rowColumn := fun row name =>
      (match row with
        | .old => "OLD."
        | .new => "NEW."
        | _ => "rec.") ++ column name
    localValue := fun name => postgresLocal name
    textCast := fun _ value => Fragment.ofText "(" ++ value ++ ")::text"
    trueValues := none
    substringName := "SUBSTRING"
    sessionValue := sessionValue
    localeKey := "changelog.locale"
    clearsToEmpty := true
    ranksAlternatives := false
    freshId := "gen_random_uuid()"
    now := "now()"
    currentUser := coalesce [nullIfEmpty (sessionValue "changelog.user"), "current_user"]
    transactionId := "txid_current()::text" }

def of (backend : Backend) (quoted : Bool) : Dialect :=
  match backend with
  | .sqlite => sqlite quoted
  | .hana => hana quoted
  | .h2 => h2 quoted
  | .postgres => postgres quoted

end Dialect

end ChangeTracking.Sql

import TripleLex.Query.Level

/-!
# Keywords of SPARQL

One row per keyword: its spelling, its tag in serialised tokens, the part it
plays in the grammar, and the lowest level that knows it. Four keywords are
spelled as two words; a single word is never read as one of them.

Main statement: a word is read as a keyword only if it spells it, in any mixture
of ASCII cases, and the keyword is one word (`spelled_of_ofWord?`).
-/

namespace TripleLex.Query

/-- The part that a keyword plays in the grammar. -/
inductive Role where
  /-- Opens a query. -/
  | query
  /-- Opens or continues an update. -/
  | update
  /-- Opens or modifies a clause. -/
  | clause
  /-- Names a function. -/
  | function
  /-- Names an aggregate. -/
  | aggregate
  deriving DecidableEq, Repr

/-- The name of a role in serialised rows. -/
def Role.tag : Role → String
  | query => "query"
  | update => "update"
  | clause => "clause"
  | function => "function"
  | aggregate => "aggregate"

/-- A keyword of the query language. -/
inductive Keyword where
  | ask
  | construct
  | describe
  | select
  | distinct
  | reduced
  | fromClause
  | named
  | whereClause
  | optional
  | graph
  | union
  | filter
  | orderBy
  | asc
  | desc
  | limit
  | offset
  | groupBy
  | having
  | asName
  | bind
  | values
  | undef
  | minus
  | service
  | silent
  | existsPattern
  | notExistsPattern
  | inList
  | notInList
  | separator
  | bindings
  | letBinding
  | unsaid
  | add
  | clear
  | copy
  | create
  | delete
  | drop
  | insert
  | load
  | move
  | withGraph
  | data
  | default
  | intoGraph
  | toGraph
  | usingGraph
  | allGraphs
  | count
  | sum
  | min
  | max
  | avg
  | sample
  | groupConcat
  | median
  | mode
  | nMax
  | nMin
  | bound
  | str
  | lang
  | langMatches
  | datatype
  | isIri
  | isUri
  | isBlank
  | isLiteral
  | regex
  | sameTerm
  | isNumeric
  | iri
  | uri
  | bNode
  | rand
  | abs
  | ceil
  | floor
  | round
  | concat
  | strLen
  | subStr
  | uCase
  | lCase
  | encodeForUri
  | contains
  | strStarts
  | strEnds
  | strBefore
  | strAfter
  | replace
  | year
  | month
  | day
  | hours
  | minutes
  | seconds
  | timezone
  | tz
  | now
  | uuid
  | strUuid
  | md5
  | sha1
  | sha256
  | sha384
  | sha512
  | coalesce
  | ifThenElse
  | strLang
  | strDt
  | call
  | length
  deriving DecidableEq, Repr

namespace Keyword

/-- What is known of a keyword. -/
structure Row where
  text : String
  tag : String
  role : Role
  level : Level

/-- The row of a keyword. -/
def row : Keyword → Row
  | ask => ⟨"ASK", "ASK", .query, .sparql10⟩
  | construct => ⟨"CONSTRUCT", "CONSTRUCT", .query, .sparql10⟩
  | describe => ⟨"DESCRIBE", "DESCRIBE", .query, .sparql10⟩
  | select => ⟨"SELECT", "SELECT", .query, .sparql10⟩
  | distinct => ⟨"DISTINCT", "DISTINCT", .clause, .sparql10⟩
  | reduced => ⟨"REDUCED", "REDUCED", .clause, .sparql10⟩
  | fromClause => ⟨"FROM", "FROM", .clause, .sparql10⟩
  | named => ⟨"NAMED", "NAMED", .clause, .sparql10⟩
  | whereClause => ⟨"WHERE", "WHERE", .clause, .sparql10⟩
  | optional => ⟨"OPTIONAL", "OPTIONAL", .clause, .sparql10⟩
  | graph => ⟨"GRAPH", "GRAPH", .clause, .sparql10⟩
  | union => ⟨"UNION", "UNION", .clause, .sparql10⟩
  | filter => ⟨"FILTER", "FILTER", .clause, .sparql10⟩
  | orderBy => ⟨"ORDER BY", "ORDER_BY", .clause, .sparql10⟩
  | asc => ⟨"ASC", "ASC", .clause, .sparql10⟩
  | desc => ⟨"DESC", "DESC", .clause, .sparql10⟩
  | limit => ⟨"LIMIT", "LIMIT", .clause, .sparql10⟩
  | offset => ⟨"OFFSET", "OFFSET", .clause, .sparql10⟩
  | groupBy => ⟨"GROUP BY", "GROUP_BY", .clause, .sparql11⟩
  | having => ⟨"HAVING", "HAVING", .clause, .sparql11⟩
  | asName => ⟨"AS", "AS", .clause, .sparql11⟩
  | bind => ⟨"BIND", "BIND", .clause, .sparql11⟩
  | values => ⟨"VALUES", "VALUES", .clause, .sparql11⟩
  | undef => ⟨"UNDEF", "UNDEF", .clause, .sparql11⟩
  | minus => ⟨"MINUS", "MINUS", .clause, .sparql11⟩
  | service => ⟨"SERVICE", "SERVICE", .clause, .sparql11⟩
  | silent => ⟨"SILENT", "SILENT", .clause, .sparql11⟩
  | existsPattern => ⟨"EXISTS", "EXISTS", .clause, .sparql11⟩
  | notExistsPattern => ⟨"NOT EXISTS", "NOT_EXISTS", .clause, .sparql11⟩
  | inList => ⟨"IN", "IN", .clause, .sparql11⟩
  | notInList => ⟨"NOT IN", "NOT_IN", .clause, .sparql11⟩
  | separator => ⟨"SEPARATOR", "SEPARATOR", .clause, .sparql11⟩
  | bindings => ⟨"BINDINGS", "BINDINGS", .clause, .extended⟩
  | letBinding => ⟨"LET", "LET", .clause, .extended⟩
  | unsaid => ⟨"UNSAID", "UNSAID", .clause, .extended⟩
  | add => ⟨"ADD", "ADD", .update, .sparql11⟩
  | clear => ⟨"CLEAR", "CLEAR", .update, .sparql11⟩
  | copy => ⟨"COPY", "COPY", .update, .sparql11⟩
  | create => ⟨"CREATE", "CREATE", .update, .sparql11⟩
  | delete => ⟨"DELETE", "DELETE", .update, .sparql11⟩
  | drop => ⟨"DROP", "DROP", .update, .sparql11⟩
  | insert => ⟨"INSERT", "INSERT", .update, .sparql11⟩
  | load => ⟨"LOAD", "LOAD", .update, .sparql11⟩
  | move => ⟨"MOVE", "MOVE", .update, .sparql11⟩
  | withGraph => ⟨"WITH", "WITH", .update, .sparql11⟩
  | data => ⟨"DATA", "DATA", .clause, .sparql11⟩
  | default => ⟨"DEFAULT", "DEFAULT", .clause, .sparql11⟩
  | intoGraph => ⟨"INTO", "INTO", .clause, .sparql11⟩
  | toGraph => ⟨"TO", "TO", .clause, .sparql11⟩
  | usingGraph => ⟨"USING", "USING", .clause, .sparql11⟩
  | allGraphs => ⟨"ALL", "ALL_WORD", .clause, .sparql11⟩
  | count => ⟨"COUNT", "COUNT", .aggregate, .sparql11⟩
  | sum => ⟨"SUM", "SUM", .aggregate, .sparql11⟩
  | min => ⟨"MIN", "MIN", .aggregate, .sparql11⟩
  | max => ⟨"MAX", "MAX", .aggregate, .sparql11⟩
  | avg => ⟨"AVG", "AVG", .aggregate, .sparql11⟩
  | sample => ⟨"SAMPLE", "SAMPLE", .aggregate, .sparql11⟩
  | groupConcat => ⟨"GROUP_CONCAT", "GROUP_CONCAT", .aggregate, .sparql11⟩
  | median => ⟨"MEDIAN", "MEDIAN", .aggregate, .extended⟩
  | mode => ⟨"MODE", "MODE", .aggregate, .extended⟩
  | nMax => ⟨"NMAX", "N_MAX", .aggregate, .extended⟩
  | nMin => ⟨"NMIN", "N_MIN", .aggregate, .extended⟩
  | bound => ⟨"BOUND", "BOUND", .function, .sparql10⟩
  | str => ⟨"STR", "STR", .function, .sparql10⟩
  | lang => ⟨"LANG", "LANG", .function, .sparql10⟩
  | langMatches => ⟨"LANGMATCHES", "LANG_MATCHES", .function, .sparql10⟩
  | datatype => ⟨"DATATYPE", "DATATYPE", .function, .sparql10⟩
  | isIri => ⟨"ISIRI", "IS_IRI", .function, .sparql10⟩
  | isUri => ⟨"ISURI", "IS_URI", .function, .sparql10⟩
  | isBlank => ⟨"ISBLANK", "IS_BLANK", .function, .sparql10⟩
  | isLiteral => ⟨"ISLITERAL", "IS_LITERAL", .function, .sparql10⟩
  | regex => ⟨"REGEX", "REGEX", .function, .sparql10⟩
  | sameTerm => ⟨"SAMETERM", "SAME_TERM", .function, .sparql10⟩
  | isNumeric => ⟨"ISNUMERIC", "IS_NUMERIC", .function, .sparql11⟩
  | iri => ⟨"IRI", "IRI", .function, .sparql11⟩
  | uri => ⟨"URI", "URI", .function, .sparql11⟩
  | bNode => ⟨"BNODE", "B_NODE", .function, .sparql11⟩
  | rand => ⟨"RAND", "RAND", .function, .sparql11⟩
  | abs => ⟨"ABS", "ABS", .function, .sparql11⟩
  | ceil => ⟨"CEIL", "CEIL", .function, .sparql11⟩
  | floor => ⟨"FLOOR", "FLOOR", .function, .sparql11⟩
  | round => ⟨"ROUND", "ROUND", .function, .sparql11⟩
  | concat => ⟨"CONCAT", "CONCAT", .function, .sparql11⟩
  | strLen => ⟨"STRLEN", "STR_LEN", .function, .sparql11⟩
  | subStr => ⟨"SUBSTR", "SUB_STR", .function, .sparql11⟩
  | uCase => ⟨"UCASE", "U_CASE", .function, .sparql11⟩
  | lCase => ⟨"LCASE", "L_CASE", .function, .sparql11⟩
  | encodeForUri => ⟨"ENCODE_FOR_URI", "ENCODE_FOR_URI", .function, .sparql11⟩
  | contains => ⟨"CONTAINS", "CONTAINS", .function, .sparql11⟩
  | strStarts => ⟨"STRSTARTS", "STR_STARTS", .function, .sparql11⟩
  | strEnds => ⟨"STRENDS", "STR_ENDS", .function, .sparql11⟩
  | strBefore => ⟨"STRBEFORE", "STR_BEFORE", .function, .sparql11⟩
  | strAfter => ⟨"STRAFTER", "STR_AFTER", .function, .sparql11⟩
  | replace => ⟨"REPLACE", "REPLACE", .function, .sparql11⟩
  | year => ⟨"YEAR", "YEAR", .function, .sparql11⟩
  | month => ⟨"MONTH", "MONTH", .function, .sparql11⟩
  | day => ⟨"DAY", "DAY", .function, .sparql11⟩
  | hours => ⟨"HOURS", "HOURS", .function, .sparql11⟩
  | minutes => ⟨"MINUTES", "MINUTES", .function, .sparql11⟩
  | seconds => ⟨"SECONDS", "SECONDS", .function, .sparql11⟩
  | timezone => ⟨"TIMEZONE", "TIMEZONE", .function, .sparql11⟩
  | tz => ⟨"TZ", "TZ", .function, .sparql11⟩
  | now => ⟨"NOW", "NOW", .function, .sparql11⟩
  | uuid => ⟨"UUID", "UUID", .function, .sparql11⟩
  | strUuid => ⟨"STRUUID", "STR_UUID", .function, .sparql11⟩
  | md5 => ⟨"MD5", "MD5", .function, .sparql11⟩
  | sha1 => ⟨"SHA1", "SHA1", .function, .sparql11⟩
  | sha256 => ⟨"SHA256", "SHA256", .function, .sparql11⟩
  | sha384 => ⟨"SHA384", "SHA384", .function, .sparql11⟩
  | sha512 => ⟨"SHA512", "SHA512", .function, .sparql11⟩
  | coalesce => ⟨"COALESCE", "COALESCE", .function, .sparql11⟩
  | ifThenElse => ⟨"IF", "IF", .function, .sparql11⟩
  | strLang => ⟨"STRLANG", "STR_LANG", .function, .sparql11⟩
  | strDt => ⟨"STRDT", "STR_DT", .function, .sparql11⟩
  | call => ⟨"CALL", "CALL", .function, .extended⟩
  | length => ⟨"LENGTH", "LENGTH", .function, .extended⟩

/-- Every keyword, in the order of the catalog. -/
def all : List Keyword :=
  [ask, construct, describe, select, distinct, reduced, fromClause, named, whereClause, optional,
    graph, union, filter, orderBy, asc, desc, limit, offset, groupBy, having, asName, bind, values,
    undef, minus, service, silent, existsPattern, notExistsPattern, inList, notInList,
    separator, bindings,
    letBinding, unsaid, add, clear, copy, create, delete, drop, insert, load, move, withGraph, data,
    default, intoGraph, toGraph, usingGraph, allGraphs, count, sum, min, max, avg, sample, groupConcat,
    median, mode, nMax, nMin, bound, str, lang, langMatches, datatype, isIri, isUri, isBlank,
    isLiteral, regex, sameTerm, isNumeric, iri, uri, bNode, rand, abs, ceil, floor, round, concat,
    strLen, subStr, uCase, lCase, encodeForUri, contains, strStarts, strEnds, strBefore, strAfter,
    replace, year, month, day, hours, minutes, seconds, timezone, tz, now, uuid, strUuid, md5, sha1,
    sha256, sha384, sha512, coalesce, ifThenElse, strLang, strDt, call, length]

/-- The spelling, in upper case. -/
def text (k : Keyword) : String := k.row.text

/-- The name in serialised tokens. -/
def tag (k : Keyword) : String := k.row.tag

/-- The part played in the grammar. -/
def role (k : Keyword) : Role := k.row.role

/-- The lowest level that knows the keyword. -/
def level (k : Keyword) : Level := k.row.level

/-- Whether the keyword is spelled as two words. -/
def hasTwoWords (k : Keyword) : Bool := k.text.toList.contains ' '

/-- Whether the keyword opens a query. -/
def opensQuery (k : Keyword) : Bool := k.role == .query

/-- Whether the keyword can open an update. -/
def opensUpdate (k : Keyword) : Bool := k.role == .update

/-- Whether a level knows the keyword. -/
def availableIn (k : Keyword) (l : Level) : Bool := decide (k.level.rank ≤ l.rank)

/-- The spelling without the space between its words. -/
def joined (k : Keyword) : String := String.ofList (k.text.toList.filter (· != ' '))

end Keyword

/-- Whether two words agree up to the case of their ASCII letters. -/
def sameWord (w v : List Char) : Bool := w.map Char.toLower == v.map Char.toLower

/-- The keyword of one word with this spelling, in any mixture of ASCII
cases. -/
def Keyword.ofWord? (w : List Char) : Option Keyword :=
  all.find? fun k => !k.hasTwoWords && sameWord k.text.toList w

theorem Keyword.mem_all (k : Keyword) : k ∈ all := by cases k <;> decide

theorem Keyword.spelled_of_ofWord? {w : List Char} {k : Keyword} (h : ofWord? w = some k) :
    k.hasTwoWords = false ∧ sameWord k.text.toList w = true := by
  have := List.find?_some h
  simpa using this

end TripleLex.Query

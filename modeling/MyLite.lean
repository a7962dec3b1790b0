import MyLite.Directory.Exclusive
import MyLite.Directory.LifeCycle
import MyLite.Directory.Refusal
import MyLite.MariaDB.QueryString
import MyLite.Php.CallRouting
import MyLite.Php.Cursor
import MyLite.Php.DatabaseName
import MyLite.Php.EndOfData
import MyLite.Php.Integers
import MyLite.Php.Ownership
import MyLite.Php.QueryPaths
import MyLite.Php.SetCharset
import MyLite.Php.Status
import MyLite.Policy.Exports
import MyLite.Policy.Literals
import MyLite.Policy.OrdinaryNames
import MyLite.Policy.Relayout
import MyLite.Policy.StatementFor
import MyLite.Policy.Visibility
import MyLite.Policy.Wrapping
import MyLite.Prepared.History
import MyLite.Prepared.Isolation
import MyLite.Runtime.Exclusion
import MyLite.Sql.Offsets

namespace RestSql

def version : String := "0.1.0"

end RestSql

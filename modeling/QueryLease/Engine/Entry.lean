namespace QueryLease.Engine

inductive Entry where
  | destroyString
  | defaultSystemConfig
  | databaseInit
  | databaseDestroy
  | connectionInit
  | connectionDestroy
  | connectionQuery
  | resultDestroy
  | resultIsSuccess
  | resultGetErrorMessage
  | resultGetNumColumns
  | resultGetColumnName
  | resultHasNext
  | resultGetNext
  | tupleDestroy
  | tupleGetValue
  | valueDestroy
  | valueIsNull
  | valueGetDataType
  | dataTypeGetId
  | dataTypeDestroy
  | valueGetBool
  | valueGetInt8
  | valueGetInt16
  | valueGetInt32
  | valueGetInt64
  | valueGetUInt8
  | valueGetUInt16
  | valueGetUInt32
  | valueGetUInt64
  | valueGetFloat
  | valueGetDouble
  | valueGetString
  | valueGetListSize
  | valueGetListElement
  | valueGetStructNumFields
  | valueGetStructFieldName
  | valueGetStructFieldValue
  | valueToString
  deriving DecidableEq

namespace Entry

def name : Entry → String
  | destroyString => "destroy_string"
  | defaultSystemConfig => "default_system_config"
  | databaseInit => "database_init"
  | databaseDestroy => "database_destroy"
  | connectionInit => "connection_init"
  | connectionDestroy => "connection_destroy"
  | connectionQuery => "connection_query"
  | resultDestroy => "query_result_destroy"
  | resultIsSuccess => "query_result_is_success"
  | resultGetErrorMessage => "query_result_get_error_message"
  | resultGetNumColumns => "query_result_get_num_columns"
  | resultGetColumnName => "query_result_get_column_name"
  | resultHasNext => "query_result_has_next"
  | resultGetNext => "query_result_get_next"
  | tupleDestroy => "flat_tuple_destroy"
  | tupleGetValue => "flat_tuple_get_value"
  | valueDestroy => "value_destroy"
  | valueIsNull => "value_is_null"
  | valueGetDataType => "value_get_data_type"
  | dataTypeGetId => "data_type_get_id"
  | dataTypeDestroy => "data_type_destroy"
  | valueGetBool => "value_get_bool"
  | valueGetInt8 => "value_get_int8"
  | valueGetInt16 => "value_get_int16"
  | valueGetInt32 => "value_get_int32"
  | valueGetInt64 => "value_get_int64"
  | valueGetUInt8 => "value_get_uint8"
  | valueGetUInt16 => "value_get_uint16"
  | valueGetUInt32 => "value_get_uint32"
  | valueGetUInt64 => "value_get_uint64"
  | valueGetFloat => "value_get_float"
  | valueGetDouble => "value_get_double"
  | valueGetString => "value_get_string"
  | valueGetListSize => "value_get_list_size"
  | valueGetListElement => "value_get_list_element"
  | valueGetStructNumFields => "value_get_struct_num_fields"
  | valueGetStructFieldName => "value_get_struct_field_name"
  | valueGetStructFieldValue => "value_get_struct_field_value"
  | valueToString => "value_to_string"

def symbol (e : Entry) : String := "lbug_" ++ e.name

def all : List Entry :=
  [destroyString, defaultSystemConfig, databaseInit, databaseDestroy, connectionInit,
    connectionDestroy, connectionQuery, resultDestroy, resultIsSuccess, resultGetErrorMessage,
    resultGetNumColumns, resultGetColumnName, resultHasNext, resultGetNext, tupleDestroy,
    tupleGetValue, valueDestroy, valueIsNull, valueGetDataType, dataTypeGetId, dataTypeDestroy,
    valueGetBool, valueGetInt8, valueGetInt16, valueGetInt32, valueGetInt64, valueGetUInt8,
    valueGetUInt16, valueGetUInt32, valueGetUInt64, valueGetFloat, valueGetDouble, valueGetString,
    valueGetListSize, valueGetListElement, valueGetStructNumFields, valueGetStructFieldName,
    valueGetStructFieldValue, valueToString]

end Entry

end QueryLease.Engine
